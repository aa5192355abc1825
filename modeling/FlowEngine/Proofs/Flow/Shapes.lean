import FlowEngine.Proofs.Flow.Reading
import Mathlib.Data.List.Nodup
/-!
# `FlowEngine.Proofs.Flow.Shapes` — one flow, written in several ways

A flow has one written form, and is read from more than that one: its canvas may go by two other
names, and each of its nodes may stand in the shape of the canvas editor, with whatever members the
editor adds to it.  All these ways of writing a flow are read as that flow (`decode?_shapes`), so
what is read from any of them is written again in the one form.

The two shapes of a node are told apart by `data` alone.  The shape of the editor is tried first, so
a node that has it is read from inside `data`, even if it carries a type and a configuration of its
own outside; a node in the flat shape has no `data`, and never is taken for the other.

A configuration is read as itself if the members of all objects in it stand in order, as they do in
any configuration that has been read or built.
-/

namespace FlowEngine

namespace Json

variable {key old new : String} {members : Members}

/-! ## Members under another name -/

/-- The value with one of its members under another name. -/
def rename (old new : String) : Json → Json
  | .object members => record (members.map (Prod.map (fun n => if n = old then new else n) id))
  | other => other

theorem isRecord_rename {value : Json} (h : value.IsRecord) (old new : String) :
    (value.rename old new).IsRecord := by
  obtain ⟨members, rfl, -⟩ := h
  exact isRecord_record _

theorem lookup_renamed (hnew : new ∉ members.map Prod.fst) :
    lookup key (members.map (Prod.map (fun n => if n = old then new else n) id)) =
      if key = new then lookup old members
      else if key = old then none
      else lookup key members := by
  induction members with
  | nil => simp [lookup]
  | cons member rest ih =>
      obtain ⟨name, value⟩ := member
      simp only [List.map_cons, List.mem_cons, not_or] at hnew
      obtain ⟨hname, hrest⟩ := hnew
      simp only [List.map_cons, Prod.map_apply, id_eq, lookup, ih hrest]
      by_cases hold : name = old <;> by_cases hkey : name = key <;> grind

theorem get?_rename {value : Json} (h : value.IsRecord) (hnew : value.get? new = none)
    (key : String) :
    (value.rename old new).get? key =
      if key = new then value.get? old
      else if key = old then none
      else value.get? key := by
  obtain ⟨members, rfl, hsorted⟩ := h
  have hnotin : new ∉ members.map Prod.fst := lookup_eq_none_iff.mp hnew
  have hnodup : ((members.map (Prod.map (fun n => if n = old then new else n) id)).map
      Prod.fst).Nodup := by
    rw [List.map_map]
    show (members.map ((fun n => if n = old then new else n) ∘ Prod.fst)).Nodup
    rw [← List.map_map]
    apply List.Nodup.map_on _ hsorted.nodup
    intro m hm n hn heq
    grind
  rw [rename, get?_record, lookup_reverse hnodup, lookup_renamed hnotin]
  rfl

end Json

namespace Document

/-! ## Fields that go by several names -/

/-- For a name that belongs to the same fields, it does not matter by which other names they go. -/
theorem fillField_congr {name : String} {d : Document} {fields fields' : List (List String)}
    (h : List.Forall₂ (fun names names' => names.contains name = names'.contains name)
      fields fields') (places : List (Option Document)) :
    fillField name d fields places = fillField name d fields' places := by
  induction h generalizing places with
  | nil => rfl
  | cons hnames _ ih =>
      cases places with
      | nil => rfl
      | cons place places => simp only [fillField, hnames, ih]

theorem fields?_congr {record : Json} (h : record.IsRecord) {fields fields' : List (List String)}
    (hlength : fields.length = fields'.length)
    (hnames : ∀ name, record.get? name ≠ none →
      List.Forall₂ (fun names names' => names.contains name = names'.contains name)
        fields fields') :
    (ofJson record).fields? fields = (ofJson record).fields? fields' := by
  obtain ⟨members, rfl, hsorted⟩ := h
  have hfill : ∀ (ms : Json.Members) (places : List (Option Document)),
      (∀ name ∈ ms.map Prod.fst, name ∈ members.map Prod.fst) →
      fillFields fields (ofMembers ms) places = fillFields fields' (ofMembers ms) places := by
    intro ms
    induction ms with
    | nil => intro places _; rfl
    | cons m rest ih =>
        intro places hmem
        obtain ⟨hm, hrest⟩ := List.forall_mem_cons.mp hmem
        have hpresent : (Json.object members).get? m.1 ≠ none :=
          fun hnone => Json.lookup_eq_none_iff.mp hnone hm
        simp only [ofMembers, fillFields, fillField_congr (hnames _ hpresent)]
        split
        · exact ih _ hrest
        · rfl
  have hplaces : (fields.map fun _ => (none : Option Document)) = fields'.map fun _ => none := by
    simp [List.map_const', hlength]
  rw [ofJson, fields?, fields?, hplaces]
  exact hfill members _ fun _ hname => hname

end Document

/-! ## Nodes -/

/-- A node in the shape of the canvas editor, with more members beside `id` and `data`. -/
def Node.inEditor (node : Node) (extra : Json.Members) : Json :=
  .record ([("id", .string node.id),
    ("data", .record [("type", .string node.kind), ("config", .object node.config)])] ++ extra)

/-- Members that the canvas editor may add to a node. -/
def Json.Members.Beside (extra : Json.Members) : Prop :=
  ∀ member ∈ extra, member.1 ≠ "id" ∧ member.1 ≠ "data"

/-- The node is written so, in one shape or the other. -/
inductive Node.Shown (node : Node) : Json → Prop where
  | flat : Shown node node.toJson
  | editor {extra : Json.Members} : extra.Beside → Shown node (node.inEditor extra)

theorem Node.get?_inEditor (node : Node) {extra : Json.Members} (h : extra.Beside)
    {name : String} (hname : name = "id" ∨ name = "data") :
    (node.inEditor extra).get? name =
      if name = "id" then some (.string node.id)
      else some (.record [("type", .string node.kind), ("config", .object node.config)]) := by
  have hextra : Json.lookup name extra.reverse = none := by
    apply Json.lookup_eq_none_iff.mpr
    intro hmem
    obtain ⟨member, hmember, rfl⟩ := List.mem_map.mp hmem
    have hbeside := h member (List.mem_reverse.mp hmember)
    exact hname.elim hbeside.1 hbeside.2
  rw [inEditor, Json.get?_record, List.reverse_append, Json.lookup_append, hextra, Option.none_or]
  rcases hname with rfl | rfl <;> simp [Json.lookup]

/-- A node in the shape of the editor is read from inside `data`. -/
theorem Node.decode?_inEditor {node : Node} (h : node.Tidy) {extra : Json.Members}
    (hextra : extra.Beside) : decode? (Document.ofJson (node.inEditor extra)) = some node := by
  have hrecord : (node.inEditor extra).IsRecord := Json.isRecord_record _
  have houter : (Document.ofJson (node.inEditor extra)).objectFields? [["id"], ["data"]] =
      some [some (Document.ofJson (.string node.id)), some (Document.ofJson
        (.record [("type", .string node.kind), ("config", .object node.config)]))] := by
    have hnames : ["id", "data"].Nodup := by decide
    refine (Document.objectFields?_ofJson hnames hrecord).trans ?_
    simp only [List.map_cons, List.map_nil, node.get?_inEditor hextra (.inl rfl),
      node.get?_inEditor hextra (.inr rfl)]
    rfl
  have hinner : (Document.ofJson
      (.record [("type", .string node.kind), ("config", .object node.config)])).fields?
        [["type"], ["config"]] =
      some [some (Document.ofJson (.string node.kind)),
        some (Document.ofJson (.object node.config))] := by
    have hnames : ["type", "config"].Nodup := by decide
    refine (Document.fields?_ofJson hnames (Json.isRecord_record _)).trans ?_
    simp only [List.map_cons, List.map_nil, Json.get?_record, List.reverse_cons, List.reverse_nil,
      List.nil_append, List.cons_append, Json.lookup]
    rfl
  have hbody : decodeBody? (some (Document.ofJson (.string node.kind)))
      (some (Document.ofJson (.object node.config))) = some (node.kind, node.config) := by
    rw [decodeBody?, Document.defaulted, Document.members?_ofJson h]
    rfl
  have heditor : decodeEditor? (Document.ofJson (node.inEditor extra)) = some node := by
    rw [decodeEditor?, houter]
    simp only [Option.bind_eq_bind, Option.bind_some, hinner, hbody]
    rfl
  obtain ⟨value, hvalue, -⟩ := Document.value?_ofJson (node.inEditor extra)
  rw [decode?, hvalue, heditor]
  rfl

theorem Node.Shown.decode? {node : Node} (h : node.Tidy) {j : Json} (hshown : node.Shown j) :
    Node.decode? (Document.ofJson j) = some node := by
  cases hshown with
  | flat => exact Node.decode?_toJson h
  | editor hextra => exact Node.decode?_inEditor h hextra

/-! ## Canvases -/

/-- A canvas with its nodes written in a way of their own. -/
def Canvas.drawn (canvas : Canvas) (nodes : List Json) : Json :=
  .record [("nodes", .array nodes), ("edges", .array (canvas.edges.map Edge.toJson))]

theorem Document.readAll_of_forall₂ {α : Type} {read : Document → Option α} {R : α → Json → Prop}
    {items : List α} {written : List Json} (h : List.Forall₂ R items written)
    (hread : ∀ a ∈ items, ∀ j, R a j → read (ofJson j) = some a) :
    readAll read (ofItems written) = some items := by
  induction h with
  | nil => rfl
  | cons hfirst _ ih =>
      obtain ⟨ha, hrest⟩ := List.forall_mem_cons.mp hread
      rw [ofItems, readAll, ha _ hfirst, ih hrest]

theorem Canvas.decode?_drawn {canvas : Canvas} (h : canvas.Tidy) {nodes : List Json}
    (hnodes : List.Forall₂ Node.Shown canvas.nodes nodes) :
    decode? (Document.ofJson (canvas.drawn nodes)) = some canvas := by
  have hnames : ["nodes", "edges"].Nodup := by decide
  have hfields : (Document.ofJson (canvas.drawn nodes)).fields? [["nodes"], ["edges"]] =
      some [some (.array (Document.ofItems nodes)),
        some (.array (Document.ofItems (canvas.edges.map Edge.toJson)))] := by
    refine (Document.fields?_ofJson hnames (Json.isRecord_record _)).trans ?_
    simp only [List.map_cons, List.map_nil, Json.get?_record, List.reverse_cons, List.reverse_nil,
      List.nil_append, List.cons_append, Json.lookup]
    rfl
  have hread := Document.readAll_of_forall₂ hnodes
    fun node hnode j hshown => Node.Shown.decode? (h node hnode) hshown
  have hedges := Document.readAll_ofItems fun edge (_ : edge ∈ canvas.edges) => edge.decode?_toJson
  rw [decode?, hfields]
  simp only [Option.bind_eq_bind, Option.bind_some, Document.defaulted, Document.list?, hread,
    hedges]

/-! ## Flows -/

def Flow.canvasNames : List String := ["canvas", "canvasJson", "canvas_json"]

/-- A flow with its canvas written in a way of its own, under a name of its own. -/
def Flow.drawn (flow : Flow) (name : String) (canvas : Json) : Json :=
  .record ([("id", .string flow.id), ("name", .string flow.name)] ++
    Json.member? "description" (flow.description.map .string) ++
    [("version", .ofNat flow.version.toNat), ("status", .string flow.status.text),
      (name, canvas)])

theorem Flow.get?_drawn (flow : Flow) (name : String) (canvas : Json) (key : String) :
    (flow.drawn name canvas).get? key =
      if key = name then some canvas
      else if key = "id" then some (.string flow.id)
      else if key = "name" then some (.string flow.name)
      else if key = "description" then flow.description.map .string
      else if key = "version" then some (.ofNat flow.version.toNat)
      else if key = "status" then some (.string flow.status.text)
      else none := by
  rw [drawn, Json.get?_record]
  simp only [List.reverse_append, Json.reverse_member?, Json.lookup_append, Json.lookup_member?,
    List.reverse_cons, List.reverse_nil, List.nil_append, Json.lookup]
  grind

theorem Flow.fields?_drawn (flow : Flow) {name : String} (hname : name ∈ canvasNames)
    (canvas : Json) :
    (Document.ofJson (flow.drawn name canvas)).fields?
        [["id"], ["name"], ["description"], ["version"], ["status"],
          ["canvas", "canvasJson", "canvas_json"]] =
      some [some (Document.ofJson (.string flow.id)), some (Document.ofJson (.string flow.name)),
        (flow.description.map Json.string).map Document.ofJson,
        some (Document.ofJson (.ofNat flow.version.toNat)),
        some (Document.ofJson (.string flow.status.text)), some (Document.ofJson canvas)] := by
  have hrecord : (flow.drawn name canvas).IsRecord := Json.isRecord_record _
  have hnames : ["id", "name", "description", "version", "status", name].Nodup := by
    simp only [canvasNames, List.mem_cons, List.not_mem_nil, or_false] at hname
    rcases hname with rfl | rfl | rfl <;> decide
  have hothers : (Document.ofJson (flow.drawn name canvas)).fields?
        [["id"], ["name"], ["description"], ["version"], ["status"],
          ["canvas", "canvasJson", "canvas_json"]] =
      (Document.ofJson (flow.drawn name canvas)).fields?
        (["id", "name", "description", "version", "status", name].map fun n => [n]) := by
    refine Document.fields?_congr hrecord ?_ ?_
    · rfl
    intro key hkey
    have hcanvas : canvasNames.contains key = [name].contains key := by
      rw [get?_drawn] at hkey
      simp only [canvasNames, List.mem_cons, List.not_mem_nil, or_false] at hname
      rcases hname with rfl | rfl | rfl <;> grind [canvasNames]
    exact .cons rfl (.cons rfl (.cons rfl (.cons rfl (.cons rfl (.cons hcanvas .nil)))))
  rw [hothers, Document.fields?_ofJson hnames hrecord]
  simp only [canvasNames, List.mem_cons, List.not_mem_nil, or_false] at hname
  rcases hname with rfl | rfl | rfl <;> simp [get?_drawn]

theorem Flow.decode?_drawn {flow : Flow} {name : String} (hname : name ∈ canvasNames)
    {canvas : Json} (hcanvas : Canvas.decode? (Document.ofJson canvas) = some flow.canvas) :
    decode? (Document.ofJson (flow.drawn name canvas)) = some flow := by
  -- The fields are read one by one: read all at once, the bound of the version would be unfolded.
  have hid : Document.required Document.text? (some (Document.ofJson (.string flow.id))) =
      some flow.id := rfl
  have htitle : Document.required Document.text? (some (Document.ofJson (.string flow.name))) =
      some flow.name := rfl
  have hversion : Document.defaulted 1 Document.word?
      (some (Document.ofJson (.ofNat flow.version.toNat))) = some flow.version := by
    rw [Document.defaulted, Document.word?_ofNat]
  have hstatus : Document.defaulted .draft FlowStatus.decode?
      (some (Document.ofJson (.string flow.status.text))) = some flow.status := by
    rw [Document.defaulted, FlowStatus.decode?_text]
  have hrequired : Document.required Canvas.decode? (some (Document.ofJson canvas)) =
      some flow.canvas := hcanvas
  rw [decode?, flow.fields?_drawn hname, Option.bind_eq_bind, Option.bind_some]
  simp only [hid, htitle, hversion, hstatus, hrequired, Document.optional_text?_ofJson]
  simp only [Option.bind_eq_bind, Option.bind_some]

theorem Flow.isRecord_toJson (flow : Flow) : flow.toJson.IsRecord := Json.isRecord_record _

theorem Flow.rename_toJson (flow : Flow) {name : String}
    (hname : name = "canvasJson" ∨ name = "canvas_json") :
    flow.toJson.rename "canvas" name = flow.drawn name flow.canvas.toJson := by
  have hwritten : flow.toJson = flow.drawn "canvas" flow.canvas.toJson := rfl
  have habsent : flow.toJson.get? name = none := by
    rw [hwritten, get?_drawn]
    rcases hname with rfl | rfl <;> rfl
  refine Json.IsRecord.ext (Json.isRecord_rename flow.isRecord_toJson _ _)
    (Json.isRecord_record _) ?_
  intro key
  rw [Json.get?_rename flow.isRecord_toJson habsent, hwritten, get?_drawn, get?_drawn, get?_drawn]
  rcases hname with rfl | rfl <;> grind

/-- A flow is read as itself from its written form, and from that form with the canvas under either
of its other names.  A node is read as itself in the shape of the editor, whatever members stand
beside `id` and `data`.  So however the nodes of a canvas are written, each in either shape, and by
whichever name the canvas goes, what is read is the same flow, and is written in the same flat form
again. -/
theorem Flow.decode?_shapes {flow : Flow} (h : flow.canvas.Tidy) :
    decode? (Document.ofJson flow.toJson) = some flow ∧
    (∀ name, name = "canvasJson" ∨ name = "canvas_json" →
      decode? (Document.ofJson (flow.toJson.rename "canvas" name)) = some flow) ∧
    (∀ node : Node, node.Tidy → ∀ extra : Json.Members, extra.Beside →
      Node.decode? (Document.ofJson (node.inEditor extra)) = some node) ∧
    ∀ nodes, List.Forall₂ Node.Shown flow.canvas.nodes nodes → ∀ name ∈ canvasNames,
      decode? (Document.ofJson (flow.drawn name (flow.canvas.drawn nodes))) = some flow ∧
      (decode? (Document.ofJson (flow.drawn name (flow.canvas.drawn nodes)))).map toJson =
        some (flow.drawn "canvas" (flow.canvas.drawn (flow.canvas.nodes.map Node.toJson))) := by
  have hflat : ∀ name ∈ canvasNames,
      decode? (Document.ofJson (flow.drawn name flow.canvas.toJson)) = some flow :=
    fun name hname => decode?_drawn hname (Canvas.decode?_toJson h)
  refine ⟨hflat "canvas" (by decide), ?_, ?_, ?_⟩
  · intro name hname
    rw [flow.rename_toJson hname]
    apply hflat
    rcases hname with rfl | rfl <;> decide
  · intro node hnode extra hextra
    exact Node.decode?_inEditor hnode hextra
  · intro nodes hnodes name hname
    have hread := decode?_drawn hname (Canvas.decode?_drawn h hnodes)
    refine ⟨hread, ?_⟩
    rw [hread]
    rfl

namespace Flow

def dispatch : Flow where
  id := "f1"
  name := "Dispatch"
  description := some "Confirms what is large enough"
  version := 3
  status := .active
  canvas :=
    { nodes := [{ id := "t", kind := "trigger.manual" },
        { id := "large", kind := "logic.if",
          config := [("expr", .string "input.total > 100"), ("tags", .array [.null, .bool true])] }]
      edges := [{ source := "t", target := "large" },
        { id := some "e", source := "large", target := "t", sourceHandle := some "true" }] }

/-- What an editor adds to a node, a type and a configuration of its own among it. -/
def adornments : Json.Members :=
  [("type", .string "canvasNode"), ("config", .null), ("selected", .bool true)]

/-- The nodes of that flow as two tools write them, the first flat and the second in the shape of
the editor. -/
def dispatchNodes : List Json :=
  [({ id := "t", kind := "trigger.manual" } : Node).toJson,
    ({ id := "large", kind := "logic.if",
       config := [("expr", .string "input.total > 100"),
         ("tags", .array [.null, .bool true])] } : Node).inEditor adornments]

theorem decode?_shapes_dispatch :
    dispatch.canvas.Tidy ∧ List.Forall₂ Node.Shown dispatch.canvas.nodes dispatchNodes ∧
    decode? (Document.ofJson dispatch.toJson) = some dispatch ∧
    decode? (Document.ofJson (dispatch.toJson.rename "canvas" "canvasJson")) = some dispatch ∧
    decode? (Document.ofJson (dispatch.drawn "canvas_json" (dispatch.canvas.drawn dispatchNodes))) =
      some dispatch := by
  have hbeside : adornments.Beside := by
    simp [Json.Members.Beside, adornments]
  have hempty : Json.Sorted [] := by decide
  have hsorted : Json.Sorted [("expr", .string "input.total > 100"),
      ("tags", .array [.null, .bool true])] := by decide
  have htidy : dispatch.canvas.Tidy := by
    simp [dispatch, Canvas.Tidy, Node.Tidy, Json.Tidy, Json.TidyItems, Json.TidyMembers, hempty,
      hsorted]
  have hshown : List.Forall₂ Node.Shown dispatch.canvas.nodes dispatchNodes :=
    .cons .flat (.cons (.editor hbeside) .nil)
  obtain ⟨hwritten, hrenamed, -, hdrawn⟩ := decode?_shapes htidy
  refine ⟨htidy, hshown, hwritten, hrenamed _ (.inl rfl), ?_⟩
  exact (hdrawn dispatchNodes hshown "canvas_json" (by simp [canvasNames])).1

end Flow

end FlowEngine
