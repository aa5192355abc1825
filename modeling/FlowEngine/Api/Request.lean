import FlowEngine.Http.MediaType
import FlowEngine.Http.Percent
import FlowEngine.Json.Reader
import FlowEngine.Json.Record
/-!
# `FlowEngine.Api.Request` — what is sent to the web interface and what it answers

The path of a request is decoded in two steps.  First every escape but those of the percent sign, the
slash and the plus sign is decoded, and the segments are told apart; then what is left is decoded in
each segment.  So an escaped slash belongs to a segment, and nothing is decoded twice.
-/

namespace FlowEngine.Api

/-- A body and the content type it is declared to have. -/
structure Body where
  text : String
  contentType : Option String := none
deriving DecidableEq, Repr

/-- A request. -/
structure Request where
  method : String
  /-- The path with the query. -/
  path : String
  body : Option Body := none
deriving DecidableEq, Repr

/-- An answer; the body is missing where it is no data. -/
structure Response where
  status : Nat
  body : Option Json := none

/-! ## Paths -/

/-- An escape that the first step leaves alone. -/
def isSpared (b : UInt8) : Bool := b == 37 || b == 47 || b == 43

/-- The path without the query, after the first step. -/
def Request.route (request : Request) : String :=
  Http.decoded isSpared (String.ofList (request.path.toList.takeWhile (· != '?')))

def Request.query (request : Request) : String :=
  String.ofList ((request.path.toList.dropWhile (· != '?')).drop 1)

/-- A segment after the second step. -/
def segmentText (segment : String) : String := Http.decoded (fun _ => false) segment

/-! ## Bodies -/

def declaresData (contentType : String) : Bool :=
  (Http.MediaType.parse? contentType).any (·.isJson)

/-- How many bytes are read of a body that is declared to be data. -/
def documentLimit : Nat := 2097152

/-- How many bytes are read of a body that need not be declared. -/
def bodyLimit : Nat := 262144

/-- What is sent has no more bytes than are read. -/
def Request.fits (limit : Nat) (request : Request) : Bool :=
  request.body.all fun body => body.text.utf8ByteSize ≤ limit

/-- The text of a body that is declared to be data. -/
def Request.declared? (request : Request) : Option String :=
  match request.body with
  | some ⟨text, some contentType⟩ => if declaresData contentType then some text else none
  | _ => none

/-- The document of a body that is declared to be data. -/
def Request.document? (request : Request) : Option Document :=
  if request.fits documentLimit then request.declared?.bind Document.parse? else none

/-! ## Answers -/

def Response.ok (status : Nat) (body : Json) : Response := ⟨status, some body⟩

def Response.error (status : Nat) (message : String) : Response :=
  ⟨status, some (.object [("error", .string message)])⟩

/-- The answer where there is nothing. -/
def Response.missing : Response := ⟨404, none⟩

def Response.unreadable : Response := ⟨400, none⟩

/-- The answer to a body that is not read to its end. -/
def Response.tooLarge : Response := ⟨413, none⟩

/-- The answer to a request without the document that is asked for. -/
def Request.refusal (request : Request) : Response :=
  if request.declared?.isSome && !request.fits documentLimit then .tooLarge else .unreadable

end FlowEngine.Api
