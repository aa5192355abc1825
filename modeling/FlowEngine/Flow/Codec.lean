import FlowEngine.Flow.Basic
import FlowEngine.Json.Record
/-!
# `FlowEngine.Flow.Codec` — flows as data

A flow is written with its canvas under `canvas`, its nodes flat (`id`, `type`, `config`) and absent
fields left out.  Reading admits more: the canvas under `canvasJson` or `canvas_json`, defaults for
version, status, nodes, edges and configuration, and nodes as the canvas editor writes them, with
type and configuration under `data`.  The editor's shape is tried first, so what such a node carries
beside `id` and `data` does not matter.
-/

namespace FlowEngine

/-- A member that is left out when there is no value. -/
def Json.member? (name : String) (value : Option Json) : Json.Members :=
  match value with
  | some v => [(name, v)]
  | none => []

namespace FlowStatus

def text : FlowStatus → String
  | draft => "draft"
  | active => "active"
  | archived => "archived"

def ofText? (s : String) : Option FlowStatus :=
  if s = "draft" then some draft
  else if s = "active" then some active
  else if s = "archived" then some archived
  else none

def decode? (d : Document) : Option FlowStatus := d.choice?.bind ofText?

end FlowStatus

/-! ## Writing -/

def Edge.toJson (edge : Edge) : Json :=
  .record (Json.member? "id" (edge.id.map .string) ++
    [("source", .string edge.source), ("target", .string edge.target)] ++
    Json.member? "sourceHandle" (edge.sourceHandle.map .string))

/-- A node as data, in the flat shape. -/
def Node.toJson (node : Node) : Json :=
  .record [("id", .string node.id), ("type", .string node.kind), ("config", .object node.config)]

def Canvas.toJson (canvas : Canvas) : Json :=
  .record [("nodes", .array (canvas.nodes.map Node.toJson)),
    ("edges", .array (canvas.edges.map Edge.toJson))]

def Flow.toJson (flow : Flow) : Json :=
  .record ([("id", .string flow.id), ("name", .string flow.name)] ++
    Json.member? "description" (flow.description.map .string) ++
    [("version", .ofNat flow.version.toNat), ("status", .string flow.status.text),
      ("canvas", flow.canvas.toJson)])

/-! ## Reading -/

def Edge.decode? (d : Document) : Option Edge := do
  let [id, source, target, handle] ← d.fields? [["id"], ["source"], ["target"], ["sourceHandle"]]
    | none
  let id ← Document.optional Document.text? id
  let source ← Document.required Document.text? source
  let target ← Document.required Document.text? target
  let sourceHandle ← Document.optional Document.text? handle
  some { id, source, target, sourceHandle }

def Node.decodeBody? (kind config : Option Document) : Option (String × Json.Members) := do
  let kind ← Document.required Document.text? kind
  let config ← Document.defaulted [] Document.members? config
  some (kind, config)

/-- A node in the shape of the canvas editor. -/
def Node.decodeEditor? (d : Document) : Option Node := do
  let [id, data] ← d.objectFields? [["id"], ["data"]] | none
  let id ← Document.required Document.text? id
  let data ← data
  let [kind, config] ← data.fields? [["type"], ["config"]] | none
  let (kind, config) ← Node.decodeBody? kind config
  some { id, kind, config }

def Node.decodeFlat? (d : Document) : Option Node := do
  let [id, kind, config] ← d.objectFields? [["id"], ["type"], ["config"]] | none
  let id ← Document.required Document.text? id
  let (kind, config) ← Node.decodeBody? kind config
  some { id, kind, config }

/-- A node from data.  A node is read as a whole, so every part of it must have a value. -/
def Node.decode? (d : Document) : Option Node :=
  if d.value?.isSome then (Node.decodeEditor? d).or (Node.decodeFlat? d) else none

def Canvas.decode? (d : Document) : Option Canvas := do
  let [nodes, edges] ← d.fields? [["nodes"], ["edges"]] | none
  let nodes ← Document.defaulted [] (Document.list? Node.decode?) nodes
  let edges ← Document.defaulted [] (Document.list? Edge.decode?) edges
  some { nodes, edges }

def Flow.decode? (d : Document) : Option Flow := do
  let [id, name, description, version, status, canvas] ← d.fields?
    [["id"], ["name"], ["description"], ["version"], ["status"],
      ["canvas", "canvasJson", "canvas_json"]] | none
  let id ← Document.required Document.text? id
  let name ← Document.required Document.text? name
  let description ← Document.optional Document.text? description
  let version ← Document.defaulted 1 Document.word? version
  let status ← Document.defaulted .draft FlowStatus.decode? status
  let canvas ← Document.required Canvas.decode? canvas
  some { id, name, description, version, status, canvas }

end FlowEngine
