import FlowEngine.Http.Exchange
import FlowEngine.Store.Query
/-!
# `FlowEngine.Gateway.Records` — a record store behind a web interface

Each call is one request under `/api/collections/<collection>/records`.  A record that was asked for
by its identifier and answered with 404 does not exist; a listing answered with 400 had a bad filter.
A request that cannot be made because of its address or its token fails like a connection.
-/

namespace FlowEngine

/-- Where a hosted record store is. -/
structure RecordGateway where
  client : Http.Client
  /-- The whole URL of the store, without slashes at its end. -/
  base : String
  token : Option String := none

namespace RecordGateway

def provider : String := "pocketbase"

def recordsUrl (gateway : RecordGateway) (collection : String) : String :=
  gateway.base ++ "/api/collections/" ++ collection ++ "/records"

def recordUrl (gateway : RecordGateway) (collection id : String) : String :=
  gateway.recordsUrl collection ++ "/" ++ id

/-- A request with parameters behind whatever query the address has. -/
def request? (gateway : RecordGateway) (method url : String)
    (parameters : List (String × String)) (body : Option Json) : Option Http.Request := do
  let target ← Http.Target.ofUrl? gateway.client url
  let target := { target with query := target.query ++ parameters }
  if gateway.token.all Http.isHeaderValue then
    some { method, target, authorization := gateway.token.map Http.received, body }
  else none

def fetchParameters (options : FetchOptions) : List (String × String) :=
  (options.expand.toList.map fun s => ("expand", s)) ++
    options.fields.toList.map fun s => ("fields", s)

def listParameters (query : ListQuery) : List (String × String) :=
  [("page", toString query.page.toNat), ("perPage", toString query.limit.toNat)] ++
    (query.filter.toList.map fun s => ("filter", s)) ++
    (query.sort.toList.map fun s => ("sort", s)) ++
    fetchParameters { expand := query.expand, fields := query.fields }

def listRequest? (gateway : RecordGateway) (collection : String) (query : ListQuery) :
    Option Http.Request :=
  gateway.request? "GET" (gateway.recordsUrl collection) (listParameters query) none

def getOneRequest? (gateway : RecordGateway) (collection id : String) (options : FetchOptions) :
    Option Http.Request :=
  gateway.request? "GET" (gateway.recordUrl collection id) (fetchParameters options) none

def createRequest? (gateway : RecordGateway) (collection : String) (data : Json) :
    Option Http.Request :=
  gateway.request? "POST" (gateway.recordsUrl collection) [] (some data)

def updateRequest? (gateway : RecordGateway) (collection id : String) (data : Json) :
    Option Http.Request :=
  gateway.request? "PATCH" (gateway.recordUrl collection id) [] (some data)

/-- What a reply to a request without an identifier means. -/
def readReply (reply : Option Http.Reply) : Except StoreError Json :=
  match Http.received? provider reply with
  | .ok value => .ok value
  | .error e => .error (.transport e)

/-- What a reply to a request for one record means. -/
def readRecord (collection id : String) (reply : Option Http.Reply) : Except StoreError Json :=
  match Http.received? provider reply with
  | .ok value => .ok value
  | .error (.status _ 404 _) => .error (.notFound collection id)
  | .error e => .error (.transport e)

/-- How many records there are by the word of the provider, or else as many as it has sent. -/
def totalOf (body : Json) (items : List Json) : Nat :=
  ((body.get? "totalItems").bind Json.natural?).getD items.length

def readItems (collection : String) (body : Json) : Except StoreError RecordPage :=
  match body.get? "items" with
  | some (.array items) => .ok ⟨items, totalOf body items⟩
  | _ => .error (.malformed collection "list response has no items")

def readPage (collection : String) (query : ListQuery) (reply : Option Http.Reply) :
    Except StoreError RecordPage :=
  match Http.received? provider reply with
  | .ok body => readItems collection body
  | .error (.status _ 400 body) => .error (.invalidFilter (query.filter.getD "") body)
  | .error e => .error (.transport e)

end RecordGateway

end FlowEngine
