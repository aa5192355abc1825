import FlowEngine.Api.Flows
import FlowEngine.Proofs.Flow.Reading
import FlowEngine.Proofs.Json.Tidy
/-!
# `FlowEngine.Proofs.Flow.Decoding` — the canvas of a request stands in order

Out of a document in order every field is in order, and with it the configurations of the nodes that
are read from it, in whichever of the two shapes they are written.
-/

namespace FlowEngine

namespace Document

/-- Whatever stands in the places is in order. -/
def TidyPlaces (places : List (Option Document)) : Prop := ∀ place ∈ places, ∀ d ∈ place, d.Tidy

theorem tidyPlaces_none {α : Type} (fields : List α) :
    TidyPlaces (fields.map fun _ => none) := by
  intro place hplace d hd
  obtain ⟨_, -, rfl⟩ := List.mem_map.mp hplace
  cases hd

theorem TidyPlaces.fillField {fields : List (List String)} {places places' : List (Option Document)}
    (h : TidyPlaces places) {name : String} {d : Document} (hd : d.Tidy)
    (hfill : fillField name d fields places = some places') : TidyPlaces places' := by
  induction fields generalizing places places' with
  | nil =>
      obtain rfl := Option.some.inj hfill
      exact h
  | cons names rest ih =>
      cases places with
      | nil =>
          obtain rfl := Option.some.inj hfill
          exact h
      | cons place later =>
          obtain ⟨hplace, hlater⟩ := List.forall_mem_cons.mp h
          unfold Document.fillField at hfill
          split at hfill
          · cases place with
            | some old => cases hfill
            | none =>
                obtain rfl := Option.some.inj hfill
                exact List.forall_mem_cons.mpr ⟨fun x hx => Option.mem_some_iff.mp hx ▸ hd, hlater⟩
          · obtain ⟨filled, hfilled, rfl⟩ := Option.map_eq_some_iff.mp hfill
            exact List.forall_mem_cons.mpr ⟨hplace, ih hlater hfilled⟩

theorem TidyPlaces.fillFields {fields : List (List String)}
    {members : List (Option String × Document)} {places places' : List (Option Document)}
    (h : TidyPlaces places) (hmembers : ∀ m ∈ members, m.2.Tidy)
    (hfill : fillFields fields members places = some places') : TidyPlaces places' := by
  induction members generalizing places with
  | nil =>
      obtain rfl := Option.some.inj hfill
      exact h
  | cons member rest ih =>
      obtain ⟨name, d⟩ := member
      obtain ⟨hd, hrest⟩ := List.forall_mem_cons.mp hmembers
      cases name with
      | none => cases hfill
      | some name =>
          rw [Document.fillFields] at hfill
          split at hfill
          · next hfirst => exact ih (h.fillField hd hfirst) hrest hfill
          · cases hfill

theorem Tidy.fields? {d : Document} (h : d.Tidy) {fields : List (List String)}
    {places : List (Option Document)} (hfields : d.fields? fields = some places) :
    TidyPlaces places := by
  cases h with
  | literal => cases hfields
  | object hmembers => exact (tidyPlaces_none fields).fillFields hmembers hfields
  | array hitems =>
      rw [Document.fields?] at hfields
      split at hfields
      · obtain rfl := Option.some.inj hfields
        refine List.forall_mem_append.mpr ⟨?_, tidyPlaces_none _⟩
        refine List.forall_mem_map.mpr ?_
        intro d hd x hx
        exact Option.mem_some_iff.mp hx ▸ hitems d hd
      · cases hfields

theorem Tidy.objectFields? {d : Document} (h : d.Tidy) {fields : List (List String)}
    {places : List (Option Document)} (hfields : d.objectFields? fields = some places) :
    TidyPlaces places := by
  cases h with
  | object hmembers => exact (Tidy.object hmembers).fields? hfields
  | _ => cases hfields

theorem Tidy.members? {d : Document} (h : d.Tidy) {members : Json.Members}
    (hmembers : d.members? = some members) : (Json.object members).Tidy := by
  cases h with
  | object hall =>
      obtain ⟨vs, hvs, rfl⟩ := Option.map_eq_some_iff.mp hmembers
      exact (tidyMembers_of_memberValues? hall hvs).tidy_record
  | _ => cases hmembers

theorem Tidy.list? {α : Type} {P : α → Prop} {read : Document → Option α}
    (hread : ∀ {d a}, d.Tidy → read d = some a → P a) {d : Document} (h : d.Tidy) {values : List α}
    (hvalues : d.list? read = some values) : ∀ a ∈ values, P a := by
  have hall : ∀ {ds : List Document} {values : List α}, (∀ d ∈ ds, d.Tidy) →
      readAll read ds = some values → ∀ a ∈ values, P a := by
    intro ds values hds hvalues
    induction ds generalizing values with
    | nil =>
        obtain rfl := Option.some.inj hvalues
        exact List.forall_mem_nil _
    | cons d rest ih =>
        obtain ⟨hd, hrest⟩ := List.forall_mem_cons.mp hds
        rw [readAll] at hvalues
        split at hvalues
        · next hfirst hlater =>
            obtain rfl := Option.some.inj hvalues
            exact List.forall_mem_cons.mpr ⟨hread hd hfirst, ih hrest hlater⟩
        · cases hvalues
  cases h with
  | array hitems => exact hall hitems hvalues
  | _ => cases hvalues

end Document

open Document

/-! ## Nodes and canvases -/

theorem Node.tidy_of_decodeBody? {kind config : Option Document} (h : ∀ d ∈ config, d.Tidy)
    {body : String × Json.Members} (hbody : decodeBody? kind config = some body) :
    (Json.object body.2).Tidy := by
  unfold decodeBody? at hbody
  obtain ⟨text, -, hbody⟩ := Option.bind_eq_some_iff.mp hbody
  obtain ⟨members, hmembers, hbody⟩ := Option.bind_eq_some_iff.mp hbody
  obtain rfl := Option.some.inj hbody
  cases config with
  | none =>
      obtain rfl := Option.some.inj hmembers
      exact ⟨List.Pairwise.nil, trivial⟩
  | some d => exact (h d rfl).members? hmembers

theorem Node.tidy_of_decodeFlat? {d : Document} (h : d.Tidy) {node : Node}
    (hnode : decodeFlat? d = some node) : node.Tidy := by
  unfold decodeFlat? at hnode
  obtain ⟨places, hplaces, hnode⟩ := Option.bind_eq_some_iff.mp hnode
  have htidy := h.objectFields? hplaces
  split at hnode
  · next id kind config =>
      obtain ⟨text, -, hnode⟩ := Option.bind_eq_some_iff.mp hnode
      obtain ⟨body, hbody, hnode⟩ := Option.bind_eq_some_iff.mp hnode
      obtain rfl := Option.some.inj hnode
      exact tidy_of_decodeBody? (htidy config (by simp)) hbody
  · cases hnode

theorem Node.tidy_of_decodeEditor? {d : Document} (h : d.Tidy) {node : Node}
    (hnode : decodeEditor? d = some node) : node.Tidy := by
  unfold decodeEditor? at hnode
  obtain ⟨places, hplaces, hnode⟩ := Option.bind_eq_some_iff.mp hnode
  have htidy := h.objectFields? hplaces
  split at hnode
  · next id data =>
      obtain ⟨text, -, hnode⟩ := Option.bind_eq_some_iff.mp hnode
      obtain ⟨data, hdata, hnode⟩ := Option.bind_eq_some_iff.mp hnode
      obtain ⟨inner, hinner, hnode⟩ := Option.bind_eq_some_iff.mp hnode
      have htidy' := Tidy.fields? (htidy _ (by simp) data hdata) hinner
      split at hnode
      · next kind config =>
          obtain ⟨body, hbody, hnode⟩ := Option.bind_eq_some_iff.mp hnode
          obtain rfl := Option.some.inj hnode
          exact tidy_of_decodeBody? (htidy' config (by simp)) hbody
      · cases hnode
  · cases hnode

theorem Node.tidy_of_decode? {d : Document} (h : d.Tidy) {node : Node}
    (hnode : decode? d = some node) : node.Tidy := by
  unfold decode? at hnode
  split at hnode
  · rcases Option.or_eq_some_iff.mp hnode with heditor | ⟨-, hflat⟩
    · exact tidy_of_decodeEditor? h heditor
    · exact tidy_of_decodeFlat? h hflat
  · cases hnode

theorem Canvas.tidy_of_decode? {d : Document} (h : d.Tidy) {canvas : Canvas}
    (hcanvas : decode? d = some canvas) : canvas.Tidy := by
  unfold decode? at hcanvas
  obtain ⟨places, hplaces, hcanvas⟩ := Option.bind_eq_some_iff.mp hcanvas
  have htidy := h.fields? hplaces
  split at hcanvas
  · next nodes edges =>
      obtain ⟨read, hread, hcanvas⟩ := Option.bind_eq_some_iff.mp hcanvas
      obtain ⟨edges, -, hcanvas⟩ := Option.bind_eq_some_iff.mp hcanvas
      obtain rfl := Option.some.inj hcanvas
      cases nodes with
      | none =>
          obtain rfl := Option.some.inj hread
          exact List.forall_mem_nil _
      | some d =>
          exact (htidy _ (by simp) d rfl).list? (fun hd hnode => Node.tidy_of_decode? hd hnode)
            hread
  · cases hcanvas

/-- The flow that a request wants to save has its configurations in order. -/
theorem Api.tidy_of_decodeFlow? {d : Document} (h : d.Tidy) {flow : Flow}
    (hflow : decodeFlow? d = some flow) : flow.canvas.Tidy := by
  unfold decodeFlow? at hflow
  obtain ⟨places, hplaces, hflow⟩ := Option.bind_eq_some_iff.mp hflow
  have htidy := h.fields? hplaces
  split at hflow
  · next id name description status canvas =>
      obtain ⟨id, -, hflow⟩ := Option.bind_eq_some_iff.mp hflow
      obtain ⟨name, -, hflow⟩ := Option.bind_eq_some_iff.mp hflow
      obtain ⟨description, -, hflow⟩ := Option.bind_eq_some_iff.mp hflow
      obtain ⟨status, -, hflow⟩ := Option.bind_eq_some_iff.mp hflow
      obtain ⟨read, hread, hflow⟩ := Option.bind_eq_some_iff.mp hflow
      obtain rfl := Option.some.inj hflow
      cases canvas with
      | none => cases hread
      | some d => exact Canvas.tidy_of_decode? (htidy _ (by simp) d rfl) hread
  · cases hflow

theorem Api.Request.tidy_of_document? {request : Api.Request} {d : Document}
    (h : request.document? = some d) : d.Tidy := by
  unfold Api.Request.document? at h
  split at h
  · obtain ⟨text, -, hparse⟩ := Option.bind_eq_some_iff.mp h
    exact Document.tidy_of_parse? hparse
  · cases h

end FlowEngine
