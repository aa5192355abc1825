import FlowEngine.Flow.Codec
/-!
# `FlowEngine.Library.Record` — flows as they are stored

The canvas is stored under `canvas_json`.  An empty description counts as none, a flow that has no
identifier yet is written without one, and everything but the name has a default.
-/

namespace FlowEngine

def Flow.toRecord (flow : Flow) : Json :=
  .record (Json.member? "id" (if flow.id.isEmpty then none else some (.string flow.id)) ++
    [("name", .string flow.name)] ++
    Json.member? "description" ((flow.description.filter (!·.isEmpty)).map .string) ++
    [("status", .string flow.status.text), ("version", .ofNat flow.version.toNat),
      ("canvas_json", flow.canvas.toJson)])

def Flow.ofRecord? (record : Json) : Option Flow := do
  let [id, name, description, status, version, canvas] ← (Document.ofJson record).fields?
    [["id"], ["name"], ["description"], ["status"], ["version"], ["canvas_json"]] | none
  let id ← Document.defaulted "" Document.text? id
  let name ← Document.required Document.text? name
  let description ← Document.optional Document.text? description
  let status ← Document.defaulted .draft FlowStatus.decode? status
  let version ← Document.defaulted 1 Document.word? version
  let canvas ← Document.defaulted {} Canvas.decode? canvas
  some { id, name, description := description.filter (!·.isEmpty), version, status, canvas }

end FlowEngine
