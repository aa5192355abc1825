import FlowEngine.Proofs.Ledger.Stored
import FlowEngine.Proofs.Time.Reading
/-!
# `FlowEngine.Proofs.Ledger.Hosted` — runs and steps out of a store that fills in their records

A hosted store has columns.  It shows a field that is not set as null or, if the column holds text,
as an empty text, and it shows columns of its own; what is set it keeps.  `Hosts` says of two records
that one is such a showing of the other.

None of this is read: a showing is read as the record itself (`Run.ofRecord?_hosted`,
`RunStep.ofRecord?_hosted`), field by field.  So a run or a step comes back from a hosted store as it
was written, with the identifier that the store gave it.
-/

namespace FlowEngine

/-! ## What a hosted store makes of a record -/

/-- The second record shows the first: set fields are kept, a `settable` one that is not set may be
null or an empty text, an `optional` one null, and other names may stand for anything. -/
structure Json.Hosts (settable optional : List String) (record shown : Json) : Prop where
  isRecord : shown.IsRecord
  kept : ∀ name value, record.get? name = some value → shown.get? name = some value
  blank : ∀ name ∈ settable, record.get? name = none →
    shown.get? name = none ∨ shown.get? name = some .null ∨ shown.get? name = some (.string "")
  null : ∀ name ∈ optional, record.get? name = none →
    shown.get? name = none ∨ shown.get? name = some .null

namespace Document

theorem fields?_ofRecord {names : List String} (hnames : names.Nodup) {record : Json}
    (h : record.IsRecord) : (ofJson record).fields? (names.map fun n => [n]) =
      some (names.map fun n => (record.get? n).map ofJson) := by
  obtain ⟨members, rfl, hsorted⟩ := h
  exact fields?_ofMembers hnames hsorted.nodup

end Document

namespace Json.Hosts

variable {settable optional : List String} {record shown : Json} {name : String} {α : Type}

theorem get?_eq (h : Hosts settable optional record shown)
    (hset : (record.get? name).isSome = true) : shown.get? name = record.get? name := by
  obtain ⟨value, hvalue⟩ := Option.isSome_iff_exists.mp hset
  rw [hvalue, h.kept name value hvalue]

theorem settable_eq (h : Hosts settable optional record shown) (hname : name ∈ settable)
    (read : Document → Option α) :
    Document.settable read ((shown.get? name).map Document.ofJson) =
      Document.settable read ((record.get? name).map Document.ofJson) := by
  cases hvalue : record.get? name with
  | some value => rw [h.kept name value hvalue]
  | none =>
      rcases h.blank name hname hvalue with habsent | hnull | hempty
      · rw [habsent]
      · rw [hnull]
        rfl
      · rw [hempty]
        rfl

theorem optional_eq (h : Hosts settable optional record shown) (hname : name ∈ optional)
    (read : Document → Option α) :
    Document.optional read ((shown.get? name).map Document.ofJson) =
      Document.optional read ((record.get? name).map Document.ofJson) := by
  cases hvalue : record.get? name with
  | some value => rw [h.kept name value hvalue]
  | none =>
      rcases h.null name hname hvalue with habsent | hnull
      · rw [habsent]
      · rw [hnull]
        rfl

theorem mem_of_lookup {members : Members} {value : Json} (h : lookup name members = some value) :
    (name, value) ∈ members := by
  induction members with
  | nil => cases h
  | cons member rest ih =>
      obtain ⟨head, first⟩ := member
      rw [lookup] at h
      split at h
      · next heq =>
          cases h
          rw [heq]
          exact List.mem_cons_self
      · exact List.mem_cons_of_mem _ (ih h)

/-- Fields that are laid over a record show it if none of them is set, and if those among them that
the record knows are filled in as such. -/
theorem of_additions {additions : Members} (hrecord : record.IsRecord)
    (hunset : ∀ x ∈ additions, record.get? x.1 = none)
    (hblank : ∀ x ∈ additions, x.1 ∈ settable → x.2 = .null ∨ x.2 = .string "")
    (hnull : ∀ x ∈ additions, x.1 ∈ optional → x.2 = .null) :
    Hosts settable optional record (MemoryStore.overlay additions record) := by
  have hget : ∀ name, (MemoryStore.overlay additions record).get? name = record.get? name ∨
      record.get? name = none ∧ ∃ x ∈ additions, x.1 = name ∧
        (MemoryStore.overlay additions record).get? name = some x.2 := by
    intro name
    obtain ⟨members, rfl, -⟩ := hrecord
    rw [MemoryStore.get?_overlay_last]
    split
    · exact Or.inl rfl
    · cases hadded : lookup name additions.reverse with
      | none => exact Or.inl (Option.none_or)
      | some value =>
          have hmem := List.mem_reverse.mp (mem_of_lookup hadded)
          exact Or.inr ⟨hunset _ hmem, _, hmem, rfl, rfl⟩
  refine ⟨MemoryStore.isRecord_overlay hrecord, ?_, ?_, ?_⟩
  · intro name value hvalue
    rcases hget name with hsame | ⟨hnone, -⟩
    · rw [hsame, hvalue]
    · rw [hnone] at hvalue
      cases hvalue
  · intro name hname hnone
    rcases hget name with hsame | ⟨-, x, hx, rfl, hadded⟩
    · exact Or.inl (hsame.trans hnone)
    · rw [hadded]
      rcases hblank x hx hname with hvalue | hvalue
      · exact Or.inr (Or.inl (congrArg some hvalue))
      · exact Or.inr (Or.inr (congrArg some hvalue))
  · intro name hname hnone
    rcases hget name with hsame | ⟨-, x, hx, rfl, hadded⟩
    · exact Or.inl (hsame.trans hnone)
    · exact Or.inr (hadded.trans (congrArg some (hnull x hx hname)))

end Json.Hosts

/-! ## Runs and steps -/

variable {shown : Json}

theorem Run.ofRecord?_hosted {run : Run} {inputEvent : Json}
    (h : Json.Hosts ["finished_at", "error"] [] (run.stored inputEvent) shown) :
    ofRecord? shown = ofRecord? (run.stored inputEvent) := by
  have hset : ∀ name ∈ ["id", "flow_id", "status", "trigger_type", "started_at", "test_mode",
      "input_event"], shown.get? name = (run.stored inputEvent).get? name := by
    intro name hname
    refine h.get?_eq ?_
    rw [get?_stored]
    simp only [List.mem_cons, List.not_mem_nil, or_false] at hname
    rcases hname with rfl | rfl | rfl | rfl | rfl | rfl | rfl <;> rfl
  have hnames : ["id", "flow_id", "status", "trigger_type", "started_at", "finished_at", "error",
    "test_mode", "input_event"].Nodup := by decide
  have hshown := Document.fields?_ofRecord hnames h.isRecord
  have hstored := Document.fields?_ofRecord hnames (run.isRecord_stored inputEvent)
  simp only [List.map_cons, List.map_nil] at hshown hstored
  simp only [List.forall_mem_cons] at hset
  obtain ⟨hid, hflowId, hstatus, htriggerType, hstartedAt, htestMode, hinputEvent, -⟩ := hset
  have hfinishedAt := h.settable_eq List.mem_cons_self Timestamp.decode?
  have herror := h.settable_eq (List.mem_cons_of_mem _ List.mem_cons_self) Document.text?
  rw [ofRecord?, hshown, ofRecord?, hstored]
  simp only [Option.bind_eq_bind, Option.bind_some, hid, hflowId, hstatus, htriggerType, hstartedAt,
    hfinishedAt, herror, htestMode, hinputEvent]

theorem RunStep.ofRecord?_hosted {step : RunStep}
    (h : Json.Hosts ["finished_at", "error"] ["input", "output"] step.stored shown) :
    ofRecord? shown = ofRecord? step.stored := by
  have hset : ∀ name ∈ ["id", "run_id", "node_id", "node_type", "status", "started_at"],
      shown.get? name = step.stored.get? name := by
    intro name hname
    refine h.get?_eq ?_
    rw [get?_stored]
    simp only [List.mem_cons, List.not_mem_nil, or_false] at hname
    rcases hname with rfl | rfl | rfl | rfl | rfl | rfl <;> rfl
  have hnames : ["id", "run_id", "node_id", "node_type", "status", "started_at", "finished_at",
    "input", "output", "error"].Nodup := by decide
  have hshown := Document.fields?_ofRecord hnames h.isRecord
  have hstored := Document.fields?_ofRecord hnames step.isRecord_stored
  simp only [List.map_cons, List.map_nil] at hshown hstored
  simp only [List.forall_mem_cons] at hset
  obtain ⟨hid, hrunId, hnodeId, hnodeType, hstatus, hstartedAt, -⟩ := hset
  have hfinishedAt := h.settable_eq List.mem_cons_self Timestamp.decode?
  have hinput := h.optional_eq List.mem_cons_self Document.value?
  have houtput := h.optional_eq (List.mem_cons_of_mem _ List.mem_cons_self) Document.value?
  have herror := h.settable_eq (List.mem_cons_of_mem _ List.mem_cons_self) Document.text?
  rw [ofRecord?, hshown, ofRecord?, hstored]
  simp only [Option.bind_eq_bind, Option.bind_some, hid, hrunId, hnodeId, hnodeType, hstatus,
    hstartedAt, hfinishedAt, hinput, houtput, herror]

/-- Runs and steps come back from a hosted store as they were written, under the identifier that
they got there, whatever it makes of their records; an error must not be the empty text, and data
must not be null. -/
theorem Ledger.readRecord_hosted (collection id : String) :
    (∀ (run : Run) (inputEvent shown : Json), run.startedAt.IsCivil →
      (∀ moment ∈ run.finishedAt, moment.IsCivil) → run.error ≠ some "" →
      Json.Hosts ["finished_at", "error"] [] ((run.toRecord inputEvent).withId id) shown →
        Json.readRecord Run.ofRecord? collection shown = .ok { run with id }) ∧
    (∀ (step : RunStep) (shown : Json), step.startedAt.IsCivil →
      (∀ moment ∈ step.finishedAt, moment.IsCivil) → step.Exact →
      Json.Hosts ["finished_at", "error"] ["input", "output"] (step.toRecord.withId id) shown →
        Json.readRecord RunStep.ofRecord? collection shown = .ok { step with id }) := by
  constructor
  · intro run inputEvent shown hstartedAt hfinishedAt herror hshown
    have hlegible : { run with id }.Legible :=
      ⟨hstartedAt.legible, fun moment hmoment => (hfinishedAt moment hmoment).legible⟩
    obtain ⟨read, hread, -, -, hself⟩ := Run.ofRecord?_stored hlegible inputEvent
    rw [Run.withId_toRecord] at hshown
    rw [Json.readRecord, Run.ofRecord?_hosted hshown, hread, hself herror]
  · intro step shown hstartedAt hfinishedAt hexact hshown
    have hlegible : { step with id }.Legible :=
      ⟨hstartedAt.legible, fun moment hmoment => (hfinishedAt moment hmoment).legible⟩
    have hexact' : { step with id }.Exact := ⟨hexact.input, hexact.output, hexact.error⟩
    obtain ⟨read, hread, -, -, hself⟩ := RunStep.ofRecord?_stored hlegible
    rw [RunStep.withId_toRecord] at hshown
    rw [Json.readRecord, RunStep.ofRecord?_hosted hshown, hread, hself hexact']

/-- A run queued in a leap second and its first step, shown with columns that nobody has set and with
one that the engine does not know. -/
theorem Ledger.readRecord_hosted_queued :
    let run := Run.queued "flow" .cron true ⟨1483228799, 1500000000⟩
    let step := RunStep.begin_ "run" "start" "Trigger" (some (.array [.bool true])) ⟨1483228800, 0⟩
    Json.readRecord Run.ofRecord? "runs" (MemoryStore.overlay
        [("finished_at", .string ""), ("error", .null), ("created", .string "2016-12-31")]
        ((run.toRecord (.string "tick")).withId "id")) = .ok { run with id := "id" } ∧
      Json.readRecord RunStep.ofRecord? "runs" (MemoryStore.overlay
        [("error", .string ""), ("output", .null), ("note", .array [])]
        (step.toRecord.withId "id")) = .ok { step with id := "id" } := by
  intro run step
  have hleap : run.startedAt.IsCivil := ⟨by decide, Or.inr ⟨by decide, by decide⟩⟩
  have hplain : step.startedAt.IsCivil := ⟨by decide, Or.inl (by decide)⟩
  have hexact : step.Exact := by
    refine ⟨?_, ?_, ?_⟩
    · rintro _ ⟨⟩
      exact ⟨⟨trivial, trivial⟩, fun h => by cases h⟩
    · rintro _ ⟨⟩
    · intro h
      cases h
  have hrun : Json.Hosts ["finished_at", "error"] [] ((run.toRecord (.string "tick")).withId "id")
      (MemoryStore.overlay
        [("finished_at", .string ""), ("error", .null), ("created", .string "2016-12-31")]
        ((run.toRecord (.string "tick")).withId "id")) := by
    refine .of_additions (Run.isRecord_stored { run with id := "id" } _) ?_ ?_ ?_
    · simp only [Run.withId_toRecord, List.forall_mem_cons, Run.get?_stored]
      exact ⟨rfl, rfl, rfl, List.forall_mem_nil _⟩
    · simp
    · simp
  have hstep : Json.Hosts ["finished_at", "error"] ["input", "output"] (step.toRecord.withId "id")
      (MemoryStore.overlay [("error", .string ""), ("output", .null), ("note", .array [])]
        (step.toRecord.withId "id")) := by
    refine .of_additions (RunStep.isRecord_stored { step with id := "id" }) ?_ ?_ ?_
    · simp only [RunStep.withId_toRecord, List.forall_mem_cons, RunStep.get?_stored]
      exact ⟨rfl, rfl, rfl, List.forall_mem_nil _⟩
    · simp
    · simp
  obtain ⟨hreadRun, hreadStep⟩ := Ledger.readRecord_hosted "runs" "id"
  have hunset : ∀ moment ∈ (none : Option Timestamp), moment.IsCivil := by
    rintro _ ⟨⟩
  refine ⟨hreadRun run (.string "tick") _ hleap hunset ?_ hrun,
    hreadStep step _ hplain hunset hexact hstep⟩
  intro h
  cases h

end FlowEngine
