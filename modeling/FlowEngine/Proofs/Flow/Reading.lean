import FlowEngine.Flow.Codec
import FlowEngine.Proofs.Json.Reading
/-!
# `FlowEngine.Proofs.Flow.Reading` — canvases are read as they were written

Every node is written in the flat shape, which has no `data`; the shape of the editor is tried first
and therefore never fits.  The configuration of a node is any object, and is read as itself if the
members of all the objects in it stand in order.
-/

namespace FlowEngine

namespace Json

theorem lookup_member? (name key : String) (value : Option Json) :
    lookup key (member? name value) = if name = key then value else none := by
  cases value <;> simp [member?, lookup]

theorem reverse_member? (name : String) (value : Option Json) :
    (member? name value).reverse = member? name value := by
  cases value <;> rfl

end Json

namespace Document

theorem fields?_ofJson {names : List String} (hnames : names.Nodup) {record : Json}
    (h : record.IsRecord) :
    (ofJson record).fields? (names.map fun n => [n]) =
      some (names.map fun n => (record.get? n).map ofJson) := by
  obtain ⟨members, rfl, hsorted⟩ := h
  exact fields?_ofMembers hnames hsorted.nodup

theorem objectFields?_ofJson {names : List String} (hnames : names.Nodup) {record : Json}
    (h : record.IsRecord) :
    (ofJson record).objectFields? (names.map fun n => [n]) =
      some (names.map fun n => (record.get? n).map ofJson) := by
  rw [← fields?_ofJson hnames h]
  obtain ⟨members, rfl, -⟩ := h
  rfl

theorem optional_text?_ofJson (s : Option String) :
    optional text? ((s.map Json.string).map ofJson) = some s := by
  cases s <;> rfl

theorem word?_ofNat (n : UInt32) : word? (ofJson (.ofNat n.toNat)) = some n := by
  have hlt : n.toNat < 4294967296 := n.toNat_lt
  have hself : n.toNat.toUInt32 = n := UInt32.ofNat_toNat
  have hrange : (decide (0 ≤ (n.toNat : Int)) && decide ((n.toNat : Int) < 4294967296)) = true := by
    simp only [Bool.and_eq_true, decide_eq_true_eq]
    omega
  rw [Json.ofNat, ofJson, word?, if_pos hrange, Int.toNat_natCast, hself]

theorem readAll_ofItems {α : Type} {read : Document → Option α} {write : α → Json} {items : List α}
    (h : ∀ a ∈ items, read (ofJson (write a)) = some a) :
    readAll read (ofItems (items.map write)) = some items := by
  induction items with
  | nil => rfl
  | cons a rest ih =>
      obtain ⟨ha, hrest⟩ := List.forall_mem_cons.mp h
      rw [List.map_cons, ofItems, readAll, ha, ih hrest]

theorem members?_ofJson {members : Json.Members} (h : (Json.object members).Tidy) :
    members? (ofJson (.object members)) = some members := by
  obtain ⟨hsorted, htidy⟩ := h
  obtain ⟨ms, hms, hself⟩ := memberValues?_ofMembers members
  rw [hself htidy] at hms
  rw [ofJson, members?, hms, Option.map_some, Json.ordered_of_sorted hsorted]

end Document

theorem FlowStatus.decode?_text (status : FlowStatus) :
    decode? (Document.ofJson (.string status.text)) = some status := by
  cases status <;> rfl

/-! ## Edges and nodes -/

theorem Edge.isRecord_toJson (edge : Edge) : edge.toJson.IsRecord := Json.isRecord_record _

theorem Edge.get?_toJson (edge : Edge) (name : String) :
    edge.toJson.get? name =
      if name = "id" then edge.id.map .string
      else if name = "source" then some (.string edge.source)
      else if name = "target" then some (.string edge.target)
      else if name = "sourceHandle" then edge.sourceHandle.map .string
      else none := by
  rw [toJson, Json.get?_record]
  simp only [List.reverse_append, Json.reverse_member?, Json.lookup_append, Json.lookup_member?,
    List.reverse_cons, List.reverse_nil, List.nil_append, Json.lookup]
  grind

theorem Edge.decode?_toJson (edge : Edge) :
    decode? (Document.ofJson edge.toJson) = some edge := by
  have hnames : ["id", "source", "target", "sourceHandle"].Nodup := by decide
  have hfields : (Document.ofJson edge.toJson).fields?
      [["id"], ["source"], ["target"], ["sourceHandle"]] =
      some [(edge.id.map Json.string).map Document.ofJson,
        some (Document.ofJson (.string edge.source)), some (Document.ofJson (.string edge.target)),
        (edge.sourceHandle.map Json.string).map Document.ofJson] := by
    refine (Document.fields?_ofJson hnames edge.isRecord_toJson).trans ?_
    simp only [List.map_cons, List.map_nil, get?_toJson]
    rfl
  rw [decode?, hfields]
  simp only [Option.bind_eq_bind, Option.bind_some, Document.optional_text?_ofJson]
  rfl

/-- The configuration of the node stands in order. -/
def Node.Tidy (node : Node) : Prop := (Json.object node.config).Tidy

theorem Node.isRecord_toJson (node : Node) : node.toJson.IsRecord := Json.isRecord_record _

theorem Node.get?_toJson (node : Node) (name : String) :
    node.toJson.get? name =
      if name = "id" then some (.string node.id)
      else if name = "type" then some (.string node.kind)
      else if name = "config" then some (.object node.config)
      else none := by
  rw [toJson, Json.get?_record]
  simp only [List.reverse_cons, List.reverse_nil, List.nil_append, List.cons_append, Json.lookup]
  grind

theorem Node.decodeEditor?_toJson (node : Node) :
    decodeEditor? (Document.ofJson node.toJson) = none := by
  have hnames : ["id", "data"].Nodup := by decide
  have hfields : (Document.ofJson node.toJson).objectFields? [["id"], ["data"]] =
      some [some (Document.ofJson (.string node.id)), none] := by
    refine (Document.objectFields?_ofJson hnames node.isRecord_toJson).trans ?_
    simp only [List.map_cons, List.map_nil, get?_toJson]
    rfl
  rw [decodeEditor?, hfields]
  rfl

theorem Node.decodeFlat?_toJson {node : Node} (h : node.Tidy) :
    decodeFlat? (Document.ofJson node.toJson) = some node := by
  have hnames : ["id", "type", "config"].Nodup := by decide
  have hfields : (Document.ofJson node.toJson).objectFields? [["id"], ["type"], ["config"]] =
      some [some (Document.ofJson (.string node.id)), some (Document.ofJson (.string node.kind)),
        some (Document.ofJson (.object node.config))] := by
    refine (Document.objectFields?_ofJson hnames node.isRecord_toJson).trans ?_
    simp only [List.map_cons, List.map_nil, get?_toJson]
    rfl
  have hbody : decodeBody? (some (Document.ofJson (.string node.kind)))
      (some (Document.ofJson (.object node.config))) = some (node.kind, node.config) := by
    rw [decodeBody?, Document.defaulted, Document.members?_ofJson h]
    rfl
  rw [decodeFlat?, hfields]
  simp only [Option.bind_eq_bind, Option.bind_some, hbody]
  rfl

theorem Node.decode?_toJson {node : Node} (h : node.Tidy) :
    decode? (Document.ofJson node.toJson) = some node := by
  obtain ⟨value, hvalue, -⟩ := Document.value?_ofJson node.toJson
  rw [decode?, hvalue, decodeEditor?_toJson, decodeFlat?_toJson h]
  rfl

/-! ## Canvases -/

def Canvas.Tidy (canvas : Canvas) : Prop := ∀ node ∈ canvas.nodes, node.Tidy

theorem Canvas.isRecord_toJson (canvas : Canvas) : canvas.toJson.IsRecord := Json.isRecord_record _

theorem Canvas.get?_toJson (canvas : Canvas) (name : String) :
    canvas.toJson.get? name =
      if name = "nodes" then some (.array (canvas.nodes.map Node.toJson))
      else if name = "edges" then some (.array (canvas.edges.map Edge.toJson))
      else none := by
  rw [toJson, Json.get?_record]
  simp only [List.reverse_cons, List.reverse_nil, List.nil_append, List.cons_append, Json.lookup]
  grind

theorem Canvas.decode?_toJson {canvas : Canvas} (h : canvas.Tidy) :
    decode? (Document.ofJson canvas.toJson) = some canvas := by
  have hnames : ["nodes", "edges"].Nodup := by decide
  have hfields : (Document.ofJson canvas.toJson).fields? [["nodes"], ["edges"]] =
      some [some (.array (Document.ofItems (canvas.nodes.map Node.toJson))),
        some (.array (Document.ofItems (canvas.edges.map Edge.toJson)))] := by
    refine (Document.fields?_ofJson hnames canvas.isRecord_toJson).trans ?_
    simp only [List.map_cons, List.map_nil, get?_toJson]
    rfl
  have hnodes := Document.readAll_ofItems fun node hnode => Node.decode?_toJson (h node hnode)
  have hedges := Document.readAll_ofItems fun edge (_ : edge ∈ canvas.edges) => edge.decode?_toJson
  rw [decode?, hfields]
  simp only [Option.bind_eq_bind, Option.bind_some, Document.defaulted, Document.list?, hnodes,
    hedges]

end FlowEngine
