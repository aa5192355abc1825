import FlowEngine.Proofs.Json.Reading
import FlowEngine.Proofs.Ledger.Record
import FlowEngine.Proofs.Store.Memory
import FlowEngine.Proofs.Time.Moment
/-!
# `FlowEngine.Proofs.Ledger.Stored` — the records of runs and steps, written, patched and read

`stored` is the record of a run or a step once it has its identifier.  Three facts tie it to the
value it stands for: the record that the store makes of what is written is `stored`, a patch laid
over it is `stored` of the patched value, and what is read out of it is the value again.

The last holds of what can be read at all.  Moments must be legible, an empty error is read as none,
and data must be in order and not null; whatever an execution records is so.
-/

namespace FlowEngine

/-! ## Written -/

def Run.stored (run : Run) (inputEvent : Json) : Json := (run.toRecord inputEvent).withId run.id

def RunStep.stored (step : RunStep) : Json := step.toRecord.withId step.id

namespace Run

theorem get?_stored (run : Run) (inputEvent : Json) (key : String) :
    (run.stored inputEvent).get? key =
      if "id" = key then some (.string run.id) else run.field inputEvent key := by
  rw [stored, Json.get?_withId (run.isRecord_toRecord inputEvent), get?_toRecord]

theorem isRecord_stored (run : Run) (inputEvent : Json) : (run.stored inputEvent).IsRecord :=
  (run.isRecord_toRecord inputEvent).withId _

theorem withId_toRecord (run : Run) (inputEvent : Json) (id : String) :
    (run.toRecord inputEvent).withId id = { run with id }.stored inputEvent := rfl

theorem hasId_stored (run : Run) (inputEvent : Json) (id : String) :
    MemoryStore.hasId id (run.stored inputEvent) = (run.id == id) := by
  rw [MemoryStore.hasId, get?_stored]
  rfl

end Run

namespace RunStep

theorem get?_stored (step : RunStep) (key : String) :
    step.stored.get? key = if "id" = key then some (.string step.id) else step.field key := by
  rw [stored, Json.get?_withId step.isRecord_toRecord, get?_toRecord]

theorem isRecord_stored (step : RunStep) : step.stored.IsRecord :=
  step.isRecord_toRecord.withId _

theorem withId_toRecord (step : RunStep) (id : String) :
    step.toRecord.withId id = { step with id }.stored := rfl

theorem hasId_stored (step : RunStep) (id : String) :
    MemoryStore.hasId id step.stored = (step.id == id) := by
  rw [MemoryStore.hasId, get?_stored]
  rfl

end RunStep

/-! ## Patched -/

/-- A run with what another one has in its patch. -/
def Run.patched (run update : Run) : Run :=
  { run with
    status := update.status
    finishedAt := update.finishedAt.or run.finishedAt
    error := update.error.or run.error }

def RunStep.patched (step update : RunStep) : RunStep :=
  { step with
    status := update.status
    finishedAt := update.finishedAt.or step.finishedAt
    output := update.output.or step.output
    error := update.error.or step.error }

theorem Run.field_patched (run update : Run) (inputEvent : Json) (key : String) :
    (run.patched update).field inputEvent key =
      (update.toPatch.get? key).or (run.field inputEvent key) := by
  rw [get?_toPatch]
  unfold field patched
  by_cases hs : key = "status"
  · subst hs
    rfl
  by_cases hf : key = "finished_at"
  · subst hf
    simp [Option.map_or]
  by_cases he : key = "error"
  · subst he
    simp [Option.map_or]
  simp [hs, hf, he]

theorem RunStep.field_patched (step update : RunStep) (key : String) :
    (step.patched update).field key = (update.toPatch.get? key).or (step.field key) := by
  rw [get?_toPatch]
  unfold field patched
  by_cases hs : key = "status"
  · subst hs
    rfl
  by_cases hf : key = "finished_at"
  · subst hf
    simp [Option.map_or]
  by_cases ho : key = "output"
  · subst ho
    simp
  by_cases he : key = "error"
  · subst he
    simp [Option.map_or]
  simp [hs, hf, ho, he]

/-- A patch over a record, read key by key: the identifier stays, and the patch goes before the
other fields. -/
theorem overlay_stored_eq {patch stored merged : Json} {id : String} {field : String → Option Json}
    (hpatch : patch.IsRecord) (hstored : stored.IsRecord) (hmerged : merged.IsRecord)
    (hfield : ∀ key, stored.get? key = if "id" = key then some (.string id) else field key)
    (hget : ∀ key, merged.get? key =
      if "id" = key then some (.string id) else (patch.get? key).or (field key)) :
    ∃ members, patch = .object members ∧ MemoryStore.overlay members stored = merged := by
  obtain ⟨members, rfl, hsorted⟩ := hpatch
  refine ⟨members, rfl, Json.IsRecord.ext (MemoryStore.isRecord_overlay hstored) hmerged ?_⟩
  intro key
  obtain ⟨others, rfl, -⟩ := hstored
  have hfield : Json.lookup key others = _ := hfield key
  rw [MemoryStore.get?_overlay hsorted, hget, hfield]
  by_cases hid : key = "id"
  · rw [if_pos hid, if_pos hid.symm, if_pos hid.symm]
  · rw [if_neg hid, if_neg (Ne.symm hid), if_neg (Ne.symm hid)]
    rfl

theorem Run.overlay_stored (run update : Run) (inputEvent : Json) :
    ∃ members, update.toPatch = .object members ∧
      MemoryStore.overlay members (run.stored inputEvent) =
        (run.patched update).stored inputEvent := by
  refine overlay_stored_eq update.isRecord_toPatch (run.isRecord_stored inputEvent)
    ((run.patched update).isRecord_stored inputEvent) (run.get?_stored inputEvent) ?_
  intro key
  rw [get?_stored, field_patched]
  rfl

theorem RunStep.overlay_stored (step update : RunStep) :
    ∃ members, update.toPatch = .object members ∧
      MemoryStore.overlay members step.stored = (step.patched update).stored := by
  refine overlay_stored_eq update.isRecord_toPatch step.isRecord_stored
    (step.patched update).isRecord_stored step.get?_stored ?_
  intro key
  rw [get?_stored, field_patched]
  rfl

/-! ## Read -/

namespace Timestamp

theorem decode?_toJson {t : Timestamp} (h : t.Legible) :
    decode? (Document.ofJson t.toJson) = some t := by
  rw [toJson, Document.ofJson, decode?, Document.text?, Option.bind_some]
  exact h

theorem Legible.isEmpty_text {t : Timestamp} (h : t.Legible) : t.text.isEmpty = false := by
  -- An empty text is no moment.
  have hempty : parse? "" = none := by decide
  rw [← Bool.not_eq_true, String.isEmpty_iff]
  intro heq
  rw [Legible, heq, hempty] at h
  cases h

theorem settable_decode? {t : Option Timestamp} (h : ∀ m ∈ t, m.Legible) :
    Document.settable decode? ((t.map toJson).map Document.ofJson) = some t := by
  cases t with
  | none => rfl
  | some m =>
      have hunset : (Document.ofJson m.toJson).isUnset = false := by
        rw [toJson, Document.ofJson, Document.isUnset, (h m rfl).isEmpty_text]
      rw [Option.map_some, Option.map_some, Document.settable, hunset, decode?_toJson (h m rfl)]
      rfl

end Timestamp

theorem RunStatus.decode?_text (status : RunStatus) :
    decode? (Document.ofJson (.string status.text)) = some status := by
  cases status <;> rfl

theorem TriggerType.decode?_text (triggerType : TriggerType) :
    decode? (Document.ofJson (.string triggerType.text)) = some triggerType := by
  cases triggerType <;> rfl

theorem StepStatus.decode?_text (status : StepStatus) :
    decode? (Document.ofJson (.string status.text)) = some status := by
  cases status <;> rfl

/-- The moments of a run can be read back. -/
structure Run.Legible (run : Run) : Prop where
  startedAt : run.startedAt.Legible
  finishedAt : ∀ m ∈ run.finishedAt, m.Legible

/-- The moments of a step can be read back. -/
structure RunStep.Legible (step : RunStep) : Prop where
  startedAt : step.startedAt.Legible
  finishedAt : ∀ m ∈ step.finishedAt, m.Legible

/-- The data of a step are in order and not null, and its error is worded. -/
structure RunStep.Exact (step : RunStep) : Prop where
  input : ∀ x ∈ step.input, x.Tidy ∧ x ≠ .null
  output : ∀ x ∈ step.output, x.Tidy ∧ x ≠ .null
  error : step.error ≠ some ""

theorem Run.fields?_stored (run : Run) (inputEvent : Json) :
    (Document.ofJson (run.stored inputEvent)).fields?
        [["id"], ["flow_id"], ["status"], ["trigger_type"], ["started_at"], ["finished_at"],
          ["error"], ["test_mode"], ["input_event"]] =
      some [some (Document.ofJson (.string run.id)), some (Document.ofJson (.string run.flowId)),
        some (Document.ofJson (.string run.status.text)),
        some (Document.ofJson (.string run.triggerType.text)),
        some (Document.ofJson run.startedAt.toJson),
        (run.finishedAt.map Timestamp.toJson).map Document.ofJson,
        (run.error.map Json.string).map Document.ofJson,
        some (Document.ofJson (.bool run.testMode)), some (Document.ofJson inputEvent)] := by
  obtain ⟨members, hstored, hsorted⟩ := run.isRecord_stored inputEvent
  have hget : ∀ key, Json.lookup key members =
      if "id" = key then some (.string run.id) else run.field inputEvent key := by
    intro key
    rw [← get?_stored, hstored]
    rfl
  have hnames : ["id", "flow_id", "status", "trigger_type", "started_at", "finished_at", "error",
    "test_mode", "input_event"].Nodup := by decide
  rw [hstored]
  refine (Document.fields?_ofMembers hnames hsorted.nodup).trans ?_
  simp only [List.map_cons, List.map_nil, hget]
  rfl

/-- The record of a run is read as a run of the same flow, begun at the same time; a run without an
empty error is read as itself. -/
theorem Run.ofRecord?_stored {run : Run} (h : run.Legible) (inputEvent : Json) :
    ∃ read, ofRecord? (run.stored inputEvent) = some read ∧ read.flowId = run.flowId ∧
      read.startedAt = run.startedAt ∧ (run.error ≠ some "" → read = run) := by
  obtain ⟨error, herror, hworded⟩ := Document.settable_text?_ofJson run.error
  obtain ⟨event, hevent, -⟩ := Document.optional_value?_ofJson (some inputEvent)
  refine ⟨{ run with error }, ?_, rfl, rfl, fun hne => by rw [hworded hne]⟩
  rw [Option.map_some] at hevent
  rw [ofRecord?, fields?_stored]
  simp only [Option.bind_eq_bind, Option.bind_some, Document.required, Document.defaulted,
    Timestamp.decode?_toJson h.startedAt, RunStatus.decode?_text, TriggerType.decode?_text,
    Timestamp.settable_decode? h.finishedAt, herror, hevent]
  rfl

theorem RunStep.fields?_stored (step : RunStep) :
    (Document.ofJson step.stored).fields?
        [["id"], ["run_id"], ["node_id"], ["node_type"], ["status"], ["started_at"],
          ["finished_at"], ["input"], ["output"], ["error"]] =
      some [some (Document.ofJson (.string step.id)), some (Document.ofJson (.string step.runId)),
        some (Document.ofJson (.string step.nodeId)),
        some (Document.ofJson (.string step.nodeType)),
        some (Document.ofJson (.string step.status.text)),
        some (Document.ofJson step.startedAt.toJson),
        (step.finishedAt.map Timestamp.toJson).map Document.ofJson,
        step.input.map Document.ofJson, step.output.map Document.ofJson,
        (step.error.map Json.string).map Document.ofJson] := by
  obtain ⟨members, hstored, hsorted⟩ := step.isRecord_stored
  have hget : ∀ key, Json.lookup key members =
      if "id" = key then some (.string step.id) else step.field key := by
    intro key
    rw [← get?_stored, hstored]
    rfl
  have hnames : ["id", "run_id", "node_id", "node_type", "status", "started_at", "finished_at",
    "input", "output", "error"].Nodup := by decide
  rw [hstored]
  refine (Document.fields?_ofMembers hnames hsorted.nodup).trans ?_
  simp only [List.map_cons, List.map_nil, hget]
  rfl

/-- The record of a step is read as a step of the same run, begun at the same time; an exact step is
read as itself. -/
theorem RunStep.ofRecord?_stored {step : RunStep} (h : step.Legible) :
    ∃ read, ofRecord? step.stored = some read ∧ read.runId = step.runId ∧
      read.startedAt = step.startedAt ∧ (step.Exact → read = step) := by
  obtain ⟨error, herror, hworded⟩ := Document.settable_text?_ofJson step.error
  obtain ⟨input, hinput, hinputSelf⟩ := Document.optional_value?_ofJson step.input
  obtain ⟨output, houtput, houtputSelf⟩ := Document.optional_value?_ofJson step.output
  refine ⟨{ step with input, output, error }, ?_, rfl, rfl, fun hexact => ?_⟩
  · rw [ofRecord?, fields?_stored]
    simp only [Option.bind_eq_bind, Option.bind_some, Document.required, Document.defaulted,
      Timestamp.decode?_toJson h.startedAt, StepStatus.decode?_text,
      Timestamp.settable_decode? h.finishedAt, herror, hinput, houtput]
    rfl
  · rw [hinputSelf hexact.input, houtputSelf hexact.output, hworded hexact.error]

end FlowEngine
