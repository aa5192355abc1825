import FlowEngine.Ledger.Basic
import FlowEngine.Proofs.Ledger.Stored
import FlowEngine.Proofs.Store.Kept
/-!
# `FlowEngine.Proofs.Ledger.Holding` — what a ledger holds, and what is read of it

A ledger holds runs and steps, each in the order of creation; that is all there is to know of its
two collections.  The readings are told in terms of these lists.

A listing asks for the records with a given identifier by writing it between quotes into a filter.
What is said of listings is therefore said of identifiers that hold no quote.
-/

namespace FlowEngine

/-- How runs are kept, each with the event that started it. -/
def Run.keeping : Keeping (Run × Json) where
  stored := fun (run, inputEvent) => run.stored inputEvent
  id := fun (run, _) => run.id
  hasId_stored := fun (run, inputEvent) name => run.hasId_stored inputEvent name

/-- How steps are kept. -/
def RunStep.keeping : Keeping RunStep where
  stored := RunStep.stored
  id := RunStep.id
  hasId_stored := RunStep.hasId_stored

/-- The collections of the ledger hold the records of these runs and of these steps. -/
structure Ledger.Holds (ledger : Ledger) (store : MemoryStore) (runs : List (Run × Json))
    (steps : List RunStep) : Prop where
  runs : store.Lists Run.keeping ledger.runs runs
  steps : store.Lists RunStep.keeping ledger.steps steps

/-- The ledger holds what its collections hold, whatever else there is in the store. -/
theorem Ledger.Holds.of_records {ledger : Ledger} {store store' : MemoryStore}
    {runs : List (Run × Json)} {steps : List RunStep} (h : ledger.Holds store runs steps)
    (hruns : store'.records ledger.runs = store.records ledger.runs)
    (hsteps : store'.records ledger.steps = store.records ledger.steps) :
    ledger.Holds store' runs steps :=
  ⟨hruns.trans h.runs, hsteps.trans h.steps⟩

/-- What all that is held has in common stays so, if what takes the place of one shares it. -/
theorem forall_mem_changed {α : Type} {P : α → Prop} {before after : List α} {a b : α}
    (h : ∀ x ∈ before ++ a :: after, P x) (hb : P a → P b) : ∀ x ∈ before ++ b :: after, P x := by
  rw [List.forall_mem_append, List.forall_mem_cons] at h ⊢
  exact ⟨h.1, hb h.2.1, h.2.2⟩

/-! ## Reading -/

/-- A run comes before another in a listing unless it was begun earlier. -/
def Run.newestFirst (a b : Run) : Bool := b.startedAt.notAfter a.startedAt

/-- A step comes before another in a listing unless it was begun later. -/
def RunStep.oldestFirst (a b : RunStep) : Bool := a.startedAt.notAfter b.startedAt

theorem Run.shows_stored {run : Run} (h : run.startedAt.Legible) (inputEvent : Json) :
    Store.Shows "started_at" run.startedAt (run.stored inputEvent) :=
  ⟨_, run.get?_stored inputEvent "started_at", h⟩

theorem RunStep.shows_stored {step : RunStep} (h : step.startedAt.Legible) :
    Store.Shows "started_at" step.startedAt step.stored :=
  ⟨_, step.get?_stored "started_at", h⟩

theorem isField_flowId : Condition.IsField "flow_id" where
  start := ⟨'f', "low_id".toList, rfl, by decide, by decide, List.all_eq_true.mp (by decide)⟩
  named := rfl
  single := by decide

theorem isField_runId : Condition.IsField "run_id" where
  start := ⟨'r', "un_id".toList, rfl, by decide, by decide, List.all_eq_true.mp (by decide)⟩
  named := rfl
  single := by decide

theorem Json.readRecords_map {α β : Type} {read : Json → Option β} {f : α → Json} {g : α → β}
    {items : List α} (h : ∀ a ∈ items, read (f a) = some (g a)) (collection : String) :
    readRecords read collection (items.map f) = .ok (items.map g) := by
  induction items with
  | nil => rfl
  | cons a rest ih =>
      obtain ⟨ha, hrest⟩ := List.forall_mem_cons.mp h
      simp only [List.map_cons, readRecords, readRecord, ha, ih hrest]

namespace Ledger

variable {ledger : Ledger} {store : MemoryStore} {runs : List (Run × Json)}
  {steps : List RunStep}

theorem Holds.getRun_at {before after : List (Run × Json)} {run : Run} {inputEvent : Json}
    (h : ledger.Holds store (before ++ (run, inputEvent) :: after) steps)
    (hbefore : ∀ x ∈ before, x.1.id ≠ run.id) (hlegible : run.Legible)
    (herror : run.error ≠ some "") :
    ((ledger.getRun run.id).runWith MemoryStore.answer store).1 = .ok run := by
  have hget : store.getOne ledger.runs run.id {} = .ok (run.stored inputEvent) :=
    h.runs.getOne_at hbefore rfl
  obtain ⟨read, hread, -, -, hself⟩ := Run.ofRecord?_stored hlegible inputEvent
  rw [hself herror] at hread
  rw [getRun, MemoryStore.runWith_getOne_bind, hget]
  simp only [Json.readRecord, hread]
  rfl

/-- The runs of a flow are listed with the newest first, and those begun at the same time in the
order of their creation. -/
theorem Holds.listRuns (h : ledger.Holds store runs steps) {flowId : String}
    (hquote : '"' ∉ flowId.toList) {read : Run × Json → Run}
    (hread : ∀ x ∈ runs, x.1.flowId = flowId →
      x.1.startedAt.Legible ∧ Run.ofRecord? (x.1.stored x.2) = some (read x)) :
    ((ledger.listRuns flowId).runWith MemoryStore.answer store).1 =
      .ok ((((runs.filter fun x => x.1.flowId == flowId).mergeSort
        fun x y => x.1.newestFirst y.1).take 50).map read) := by
  have hmember : ∀ x ∈ runs.filter (fun x => x.1.flowId == flowId),
      x.1.startedAt.Legible ∧ Run.ofRecord? (x.1.stored x.2) = some (read x) := by
    intro x hx
    obtain ⟨hmem, hflow⟩ := List.mem_filter.mp hx
    exact hread x hmem (beq_iff_eq.mp hflow)
  have htext : ∀ x ∈ runs, (Run.keeping.stored x).get? "flow_id" = some (.string x.1.flowId) :=
    fun x _ => x.1.get?_stored x.2 "flow_id"
  have hlist := h.runs.list_equals "-started_at" isField_flowId hquote htext runsPage
  rw [show Store.sortKeys "-started_at" = [⟨"started_at", true⟩] by decide,
    store.sorting.sort_falling fun x hx => x.1.shows_stored (hmember x hx).1 x.2,
    ← List.map_take] at hlist
  rw [Ledger.listRuns, MemoryStore.runWith_list_bind, filterFor, hlist]
  show Json.readRecords Run.ofRecord? ledger.runs _ = _
  refine Json.readRecords_map ?_ ledger.runs
  intro x hx
  exact (hmember x (List.mem_mergeSort.mp (List.mem_of_mem_take hx))).2

/-- The steps of a run are listed with the oldest first, and those begun at the same time in the
order of their creation. -/
theorem Holds.listSteps (h : ledger.Holds store runs steps) {runId : String}
    (hquote : '"' ∉ runId.toList) {read : RunStep → RunStep}
    (hread : ∀ step ∈ steps, step.runId = runId →
      step.startedAt.Legible ∧ RunStep.ofRecord? step.stored = some (read step)) :
    ((ledger.listSteps runId).runWith MemoryStore.answer store).1 =
      .ok ((((steps.filter fun step => step.runId == runId).mergeSort
        RunStep.oldestFirst).take 200).map read) := by
  have hmember : ∀ step ∈ steps.filter (fun step => step.runId == runId),
      step.startedAt.Legible ∧ RunStep.ofRecord? step.stored = some (read step) := by
    intro step hstep
    obtain ⟨hmem, hrun⟩ := List.mem_filter.mp hstep
    exact hread step hmem (beq_iff_eq.mp hrun)
  have htext : ∀ step ∈ steps,
      (RunStep.keeping.stored step).get? "run_id" = some (.string step.runId) :=
    fun step _ => step.get?_stored "run_id"
  have hlist := h.steps.list_equals "+started_at" isField_runId hquote htext stepsPage
  rw [show Store.sortKeys "+started_at" = [⟨"started_at", false⟩] by decide,
    store.sorting.sort_rising fun step hstep => step.shows_stored (hmember step hstep).1,
    ← List.map_take] at hlist
  rw [Ledger.listSteps, MemoryStore.runWith_list_bind, filterFor, hlist]
  show Json.readRecords RunStep.ofRecord? ledger.steps _ = _
  refine Json.readRecords_map ?_ ledger.steps
  intro step hstep
  exact (hmember step (List.mem_mergeSort.mp (List.mem_of_mem_take hstep))).2

end Ledger

end FlowEngine
