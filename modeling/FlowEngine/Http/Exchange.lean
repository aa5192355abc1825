import FlowEngine.Error
import FlowEngine.Http.Target
import FlowEngine.Json.Reader
import FlowEngine.Text.Blank
/-!
# `FlowEngine.Http.Exchange` — requests to providers and their replies

A provider is asked by one request, whose body, if it has one, is data, and answers with a status and
a text, or not at all.
-/

namespace FlowEngine.Http

/-- A request to a provider. -/
structure Request where
  method : String
  target : Target
  /-- The value of the header that carries the token of the record store. -/
  authorization : Option String := none
  /-- The value of the header that carries the key of the messaging provider. -/
  apiKey : Option String := none
  body : Option Json := none

/-- A reply of a provider. -/
structure Reply where
  status : Nat
  body : String
deriving DecidableEq, Repr

def isHeaderByte (b : UInt8) : Bool := (32 ≤ b && b != 127) || b == 9

def isHeaderValue (value : String) : Bool := (Text.toBytes value.toList).all isHeaderByte

/-- A header as the provider receives it: without blanks around the value. -/
def received (value : String) : String :=
  String.ofList (Text.stripWhile (fun c => c == ' ' || c == '\t') value.toList)

/-- A reply of this status has no body, whatever was sent. -/
def isBodiless (status : Nat) : Bool := status == 204 || status == 304

/-- The text of a reply, without a byte order mark in front. -/
def Reply.text (reply : Reply) : String :=
  if isBodiless reply.status then ""
  else
    match reply.body.toList with
    | c :: rest => if c.toNat = 0xfeff then String.ofList rest else reply.body
    | [] => reply.body

def Reply.isSuccess (reply : Reply) : Bool := 200 ≤ reply.status && reply.status < 300

/-- The data of a reply; a blank text is null. -/
def Reply.json (provider : String) (reply : Reply) : Except TransportError Json :=
  if !reply.isSuccess then .error (.status provider reply.status reply.text)
  else if (Text.nonBlank? reply.text).isNone then .ok .null
  else
    match Json.parse? reply.text with
    | some value => .ok value
    | none => .error (.decode provider unreadableText)

def received? (provider : String) (reply : Option Reply) : Except TransportError Json :=
  match reply with
  | some reply => reply.json provider
  | none => .error (.request provider connectionFailure)

end FlowEngine.Http
