import FlowEngine.Library.Record
import FlowEngine.Proofs.Ledger.Stored
/-!
# `FlowEngine.Proofs.Library.Stored` — the records of flows, written, patched and read

`stored` is the record of a flow once it has its identifier.  Laid over the record of another flow
it leaves nothing of that but the description, and this only where it has none itself: an absent
description is not written, and a patch does not take away (`Flow.overlay_stored`).
-/

namespace FlowEngine

namespace Flow

theorem isRecord_toRecord (flow : Flow) : flow.toRecord.IsRecord := Json.isRecord_record _

/-- What the names stand for in the record of a flow, the identifier aside. -/
def field (flow : Flow) (name : String) : Option Json :=
  if name = "name" then some (.string flow.name)
  else if name = "description" then (flow.description.filter (!·.isEmpty)).map .string
  else if name = "status" then some (.string flow.status.text)
  else if name = "version" then some (.ofNat flow.version.toNat)
  else if name = "canvas_json" then some flow.canvas.toJson
  else none

theorem get?_toRecord (flow : Flow) (name : String) :
    flow.toRecord.get? name =
      if name = "id" then (if flow.id.isEmpty then none else some (.string flow.id))
      else flow.field name := by
  rw [toRecord, Json.get?_record]
  simp only [List.reverse_append, Json.reverse_member?, Json.lookup_append, Json.lookup_member?,
    List.reverse_cons, List.reverse_nil, List.nil_append, Json.lookup, field]
  grind

/-! ## Written -/

def stored (flow : Flow) : Json := flow.toRecord.withId flow.id

theorem get?_stored (flow : Flow) (key : String) :
    flow.stored.get? key = if "id" = key then some (.string flow.id) else flow.field key := by
  rw [stored, Json.get?_withId flow.isRecord_toRecord, get?_toRecord]
  grind

theorem isRecord_stored (flow : Flow) : flow.stored.IsRecord := flow.isRecord_toRecord.withId _

theorem hasId_stored (flow : Flow) (id : String) :
    MemoryStore.hasId id flow.stored = (flow.id == id) := by
  rw [MemoryStore.hasId, get?_stored]
  rfl

/-- A flow in the place of one that was there before: where it has no description, it takes over
that one's. -/
def inPlaceOf (flow : Flow) (old : Option Flow) : Flow :=
  { flow with
    description := (flow.description.filter (!·.isEmpty)).or (old.bind Flow.description) }

theorem withId_toRecord (flow : Flow) (id : String) :
    flow.toRecord.withId id = ({ flow with id }.inPlaceOf none).stored := by
  refine Json.IsRecord.ext (flow.isRecord_toRecord.withId id) (isRecord_stored _) ?_
  intro key
  rw [Json.get?_withId flow.isRecord_toRecord, get?_stored, get?_toRecord]
  unfold field inPlaceOf
  cases flow.description <;> grind

theorem idFor_toRecord (flow : Flow) (store : MemoryStore) {members : Json.Members}
    (h : flow.toRecord = .object members) (hid : flow.id ≠ "") :
    store.idFor members = flow.id := by
  have hempty : flow.id.isEmpty = false := by
    rwa [← Bool.not_eq_true, String.isEmpty_iff]
  have hlookup : Json.lookup "id" members = some (.string flow.id) := by
    have hget := flow.get?_toRecord "id"
    rwa [h, if_pos rfl, hempty] at hget
  rw [MemoryStore.idFor, MemoryStore.requestedId?, hlookup]
  simp [hempty]

/-! ## Patched -/

theorem overlay_stored {flow old : Flow} (hid : old.id = flow.id) :
    ∃ members, flow.toRecord = .object members ∧
      MemoryStore.overlay members old.stored = (flow.inPlaceOf (some old)).stored := by
  refine overlay_stored_eq flow.isRecord_toRecord old.isRecord_stored (isRecord_stored _)
    old.get?_stored ?_
  intro key
  rw [get?_stored, get?_toRecord, hid]
  by_cases hkey : key = "id"
  · rw [if_pos hkey.symm, if_pos hkey.symm]
    rfl
  rw [if_neg hkey, if_neg (Ne.symm hkey), if_neg (Ne.symm hkey)]
  unfold field inPlaceOf
  by_cases hdescription : key = "description"
  · subst hdescription
    cases flow.description with
    | none => rfl
    | some text => cases htext : text.isEmpty <;> simp [Option.filter, htext]
  · simp only [if_neg hdescription]
    grind

theorem overlay_archived (flow : Flow) :
    MemoryStore.overlay [("status", .string FlowStatus.archived.text)] flow.stored =
      { flow with status := .archived }.stored := by
  obtain ⟨members, hstored, hsorted⟩ := flow.isRecord_stored
  refine Json.IsRecord.ext (MemoryStore.isRecord_overlay flow.isRecord_stored)
    (isRecord_stored _) ?_
  have hpatch : Json.Sorted [("status", Json.string FlowStatus.archived.text)] :=
    List.pairwise_singleton _ _
  have hlookup : ∀ key, Json.lookup key members = flow.stored.get? key := by
    intro key
    rw [hstored]
    rfl
  intro key
  rw [hstored, MemoryStore.get?_overlay hpatch, hlookup, get?_stored, get?_stored]
  unfold field
  simp only [Json.lookup]
  grind

/-! ## Read -/

/-- The configurations of the flow stand in order, and its description is worded. -/
structure Exact (flow : Flow) : Prop where
  canvas : flow.canvas.Tidy
  description : flow.description ≠ some ""

theorem filter_description {description : Option String} (h : description ≠ some "") :
    description.filter (!·.isEmpty) = description := by
  cases description with
  | none => rfl
  | some text =>
      have hworded : text.isEmpty = false := by
        rw [← Bool.not_eq_true, String.isEmpty_iff]
        rintro rfl
        exact h rfl
      simp [hworded]

theorem Exact.inPlaceOf {flow : Flow} {old : Option Flow} (h : flow.canvas.Tidy)
    (hold : ∀ f ∈ old, f.Exact) : (flow.inPlaceOf old).Exact where
  canvas := h
  description := by
    intro hblank
    rcases Option.or_eq_some_iff.mp hblank with hnew | ⟨-, hkept⟩
    · exact absurd (Option.mem_filter_iff.mp hnew).2 (by decide)
    · obtain ⟨f, hf, hdescription⟩ := Option.bind_eq_some_iff.mp hkept
      exact (hold f hf).description hdescription

theorem fields?_stored (flow : Flow) :
    (Document.ofJson flow.stored).fields?
        [["id"], ["name"], ["description"], ["status"], ["version"], ["canvas_json"]] =
      some [some (Document.ofJson (.string flow.id)), some (Document.ofJson (.string flow.name)),
        ((flow.description.filter (!·.isEmpty)).map Json.string).map Document.ofJson,
        some (Document.ofJson (.string flow.status.text)),
        some (Document.ofJson (.ofNat flow.version.toNat)),
        some (Document.ofJson flow.canvas.toJson)] := by
  have hnames : ["id", "name", "description", "status", "version", "canvas_json"].Nodup := by decide
  refine (Document.fields?_ofJson hnames flow.isRecord_stored).trans ?_
  simp only [List.map_cons, List.map_nil, get?_stored]
  rfl

theorem ofRecord?_stored {flow : Flow} (h : flow.Exact) : ofRecord? flow.stored = some flow := by
  -- The fields are read one by one: read all at once, the bound of the version would be unfolded.
  have hid : Document.defaulted "" Document.text? (some (Document.ofJson (.string flow.id))) =
      some flow.id := rfl
  have hname : Document.required Document.text? (some (Document.ofJson (.string flow.name))) =
      some flow.name := rfl
  have hstatus : Document.defaulted .draft FlowStatus.decode?
      (some (Document.ofJson (.string flow.status.text))) = some flow.status := by
    rw [Document.defaulted, FlowStatus.decode?_text]
  have hversion : Document.defaulted 1 Document.word?
      (some (Document.ofJson (.ofNat flow.version.toNat))) = some flow.version := by
    rw [Document.defaulted, Document.word?_ofNat]
  have hcanvas : Document.defaulted {} Canvas.decode?
      (some (Document.ofJson flow.canvas.toJson)) = some flow.canvas := by
    rw [Document.defaulted, Canvas.decode?_toJson h.canvas]
  rw [ofRecord?, fields?_stored, filter_description h.description]
  rw [Option.bind_eq_bind, Option.bind_some]
  simp only [hid, hname, hstatus, hversion, hcanvas, Document.optional_text?_ofJson]
  simp only [Option.bind_eq_bind, Option.bind_some, filter_description h.description]

end Flow

end FlowEngine
