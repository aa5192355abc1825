import FlowEngine.Api.Request
import FlowEngine.Engine
import FlowEngine.Flow.Validation
/-!
# `FlowEngine.Api.Flows` — the requests about flows

Flows are listed, read, saved and archived.  Only a canvas that can be run is saved; saving over an
existing flow is answered with 200 and the new version, saving a new one with 201.
-/

namespace FlowEngine.Api

/-- The answer to something that went wrong. -/
def failure (e : FlowError) : Response :=
  let status : Nat := match e with
    | .runNotFound _ => 404
    | .flowArchived _ => 409
    | .canvas _ => 400
    | .noTriggerNode => 400
    | _ => 500
  .error status e.message

def flowNotFound (id : String) : Response := .error 404 ("Flow " ++ id ++ " not found")

/-- What a listing shows of a flow. -/
def summary (flow : Flow) : Json :=
  .record [("id", .string flow.id), ("name", .string flow.name),
    ("description", .ofText? flow.description), ("status", .string flow.status.text),
    ("version", .ofNat flow.version.toNat), ("nodes", .ofNat flow.canvas.nodes.length),
    ("edges", .ofNat flow.canvas.edges.length)]

def listFlows (engine : Engine) : Program Response := do
  match ← engine.settings.library.list with
  | .error e => return failure (.store e)
  | .ok flows => return .ok 200 (.array (flows.map summary))

/-- The flow that a request wants to save; without an identifier it is a new one. -/
def decodeFlow? (d : Document) : Option Flow := do
  let [id, name, description, status, canvas] ← d.fields?
    [["id"], ["name"], ["description"], ["status"], ["canvas", "canvasJson"]] | none
  let id ← Document.optional Document.text? id
  let name ← Document.required Document.text? name
  let description ← Document.optional Document.text? description
  let status ← Document.defaulted .draft FlowStatus.decode? status
  let canvas ← Document.required Canvas.decode? canvas
  some { id := id.getD "", name, description, status, canvas }

def saveFlow (engine : Engine) (request : Request) : Program Response := do
  match request.document?.bind decodeFlow? with
  | none => return request.refusal
  | some flow =>
    match flow.canvas.validate with
    | .error e => return failure (.canvas e)
    | .ok () =>
      match ← engine.settings.library.save flow with
      | .error e => return failure (.store e)
      | .ok saved =>
        return .ok (if saved.version = 1 then 201 else 200)
          (.record [("id", .string saved.id), ("version", .ofNat saved.version.toNat)])

def getFlow (engine : Engine) (id : String) : Program Response := do
  match ← engine.settings.library.get? id with
  | .error e => return failure (.store e)
  | .ok none => return flowNotFound id
  | .ok (some flow) => return .ok 200 flow.toJson

def archiveFlow (engine : Engine) (id : String) : Program Response := do
  match ← engine.settings.library.archive id with
  | .error e => return failure (.store e)
  | .ok false => return flowNotFound id
  | .ok true => return .ok 200 (.object [("message", .string "Flow archived")])

end FlowEngine.Api
