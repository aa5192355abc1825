import FlowEngine.Condition.Token
import FlowEngine.Flow.Validation
import FlowEngine.Run.Basic
/-!
# `FlowEngine.Error` — what can go wrong, and how it is worded

Errors are causes.  A provider that cannot be used gives a `TransportError`; the record store gives a
`StoreError`, which may be one of its provider; a node gives a `NodeError`, which may be either of
these; starting and reading runs gives a `FlowError`.  An error that passes on another keeps it, so a
caller can tell a missing record from a broken store; `message` is the wording that is stored with a
run and shown to people.
-/

namespace FlowEngine

/-- What stands for the details of a text that is no data. -/
def unreadableText : String := "<json error>"

/-- What stands for the details of data of the wrong shape. -/
def wrongShape : String := "<decode error>"

/-- What stands for the details of a connection that failed. -/
def connectionFailure : String := "<http error>"

/-- A provider could not be used. -/
inductive TransportError where
  | request (provider message : String)
  | status (provider : String) (code : Nat) (body : String)
  | rejected (provider message : String)
  | decode (provider message : String)
deriving DecidableEq, Repr

def TransportError.message : TransportError → String
  | request provider message => provider ++ " request failed: " ++ message
  | status provider code body => provider ++ " returned HTTP " ++ toString code ++ ": " ++ body
  | rejected provider message => provider ++ " rejected the request: " ++ message
  | decode provider message => provider ++ " sent an unreadable response: " ++ message

/-- The record store could not answer. -/
inductive StoreError where
  | notFound (collection id : String)
  | invalidFilter (filter reason : String)
  | malformed (collection reason : String)
  | transport (e : TransportError)
deriving DecidableEq, Repr

def StoreError.message : StoreError → String
  | notFound collection id => "Record " ++ id ++ " not found in '" ++ collection ++ "'"
  | invalidFilter filter reason => "Invalid filter '" ++ filter ++ "': " ++ reason
  | malformed collection reason => "Malformed record in '" ++ collection ++ "': " ++ reason
  | transport e => e.message

/-- A node could not do its work. -/
inductive NodeError where
  | missingRecipient
  | missingSelector
  | missingConfig (field : String)
  | invalidConfig (field reason : String)
  | transport (e : TransportError)
  | store (e : StoreError)
  | condition (e : Condition.Error)
  | unknownNodeType (kind : String)
  | executionFailed (reason : String)
deriving DecidableEq, Repr

def NodeError.message : NodeError → String
  | missingRecipient => "Recipient not found: set `to` or a resolvable `toPath`"
  | missingSelector => "No recordId or filter provided"
  | missingConfig field => "Missing config: " ++ field
  | invalidConfig field reason => "Invalid config for '" ++ field ++ "': " ++ reason
  | transport e => e.message
  | store e => e.message
  | condition e => "Failed to evaluate condition: " ++ e.message
  | unknownNodeType kind => "Unknown node type: " ++ kind
  | executionFailed reason => "Execution failed: " ++ reason

/-- A run could not be started, executed or read. -/
inductive FlowError where
  | noTriggerNode
  | node (e : NodeError)
  | canvas (e : CanvasError)
  | store (e : StoreError)
  | invalidTransition (e : InvalidTransition)
  | flowArchived (id : String)
  | runNotFound (id : String)
deriving DecidableEq, Repr

def FlowError.message : FlowError → String
  | noTriggerNode => "No trigger node found in flow"
  | node e => "Node error: " ++ e.message
  | canvas e => "Canvas error: " ++ e.message
  | store e => "Record store error: " ++ e.message
  | invalidTransition e =>
    "Invalid run transition from " ++ e.origin.text ++ " to " ++ e.target.text
  | flowArchived id => "Flow " ++ id ++ " is archived"
  | runNotFound id => "Run not found: " ++ id

end FlowEngine
