import FlowEngine.Proofs.Ledger.Holding
/-!
# `FlowEngine.Proofs.Ledger.Writing` — what a call on its collections makes of a ledger

A ledger goes on holding runs and steps whatever is written to it.  A creation adds one at the
end, or finds the identifier for it in use and changes nothing; a patch goes to the first of its
identifier, or finds none and changes nothing.
-/

namespace FlowEngine.Ledger.Holds

variable {ledger : Ledger} {store : MemoryStore} {runs : List (Run × Json)}
  {steps : List RunStep}

/-! ## Creating -/

theorem create_run (h : ledger.Holds store runs steps) (hnames : ledger.runs ≠ ledger.steps)
    (run : Run) (inputEvent : Json) :
    (∃ x ∈ runs, x.1.id = store.issue.1) ∧
        ledger.Holds (store.create ledger.runs (run.toRecord inputEvent)).2 runs steps ∨
      (store.create ledger.runs (run.toRecord inputEvent)).1 =
          .ok ({ run with id := store.issue.1 }.stored inputEvent) ∧
        ledger.Holds (store.create ledger.runs (run.toRecord inputEvent)).2
          (runs ++ [({ run with id := store.issue.1 }, inputEvent)]) steps := by
  obtain ⟨-, -, hframe⟩ :=
    MemoryStore.create_frame store ledger.runs (run.toRecord inputEvent)
  have hsteps := (hframe ledger.steps hnames).trans h.steps
  have hid : (run.toRecord inputEvent).get? "id" = none := run.get?_toRecord inputEvent "id"
  rcases h.runs.create (run.isRecord_toRecord inputEvent) hid
    (a := ({ run with id := store.issue.1 }, inputEvent)) rfl with
    ⟨hused, hruns⟩ | ⟨hreply, hruns⟩
  · exact Or.inl ⟨hused, hruns, hsteps⟩
  · exact Or.inr ⟨hreply, hruns, hsteps⟩

theorem create_step (h : ledger.Holds store runs steps) (hnames : ledger.runs ≠ ledger.steps)
    (step : RunStep) :
    (∃ other ∈ steps, other.id = store.issue.1) ∧
        ledger.Holds (store.create ledger.steps step.toRecord).2 runs steps ∨
      (store.create ledger.steps step.toRecord).1 =
          .ok { step with id := store.issue.1 }.stored ∧
        ledger.Holds (store.create ledger.steps step.toRecord).2 runs
          (steps ++ [{ step with id := store.issue.1 }]) := by
  obtain ⟨-, -, hframe⟩ := MemoryStore.create_frame store ledger.steps step.toRecord
  have hruns := (hframe ledger.runs hnames.symm).trans h.runs
  have hid : step.toRecord.get? "id" = none := step.get?_toRecord "id"
  rcases h.steps.create step.isRecord_toRecord hid
    (a := { step with id := store.issue.1 }) rfl with ⟨hused, hsteps⟩ | ⟨hreply, hsteps⟩
  · exact Or.inl ⟨hused, hruns, hsteps⟩
  · exact Or.inr ⟨hreply, hruns, hsteps⟩

/-! ## Patching -/

theorem update_run_at {before after : List (Run × Json)} {run : Run} {inputEvent : Json}
    (h : ledger.Holds store (before ++ (run, inputEvent) :: after) steps)
    (hnames : ledger.runs ≠ ledger.steps) (hbefore : ∀ x ∈ before, x.1.id ≠ run.id)
    (update : Run) (hid : update.id = run.id) :
    ledger.Holds (store.update ledger.runs update.id update.toPatch).2
      (before ++ (run.patched update, inputEvent) :: after) steps := by
  obtain ⟨-, -, hframe⟩ :=
    MemoryStore.update_frame store ledger.runs update.id update.toPatch
  refine ⟨?_, (hframe ledger.steps hnames).trans h.steps⟩
  obtain ⟨members, hpatch, hoverlay⟩ := run.overlay_stored update inputEvent
  rw [hpatch, hid]
  exact (h.runs.update_at hbefore rfl hoverlay).2

theorem update_step_at {before after : List RunStep} {step : RunStep}
    (h : ledger.Holds store runs (before ++ step :: after)) (hnames : ledger.runs ≠ ledger.steps)
    (hbefore : ∀ other ∈ before, other.id ≠ step.id) (update : RunStep)
    (hid : update.id = step.id) :
    ledger.Holds (store.update ledger.steps update.id update.toPatch).2 runs
      (before ++ step.patched update :: after) := by
  obtain ⟨-, -, hframe⟩ :=
    MemoryStore.update_frame store ledger.steps update.id update.toPatch
  refine ⟨(hframe ledger.runs hnames.symm).trans h.runs, ?_⟩
  obtain ⟨members, hpatch, hoverlay⟩ := step.overlay_stored update
  rw [hpatch, hid]
  exact (h.steps.update_at hbefore rfl hoverlay).2

theorem update_run (h : ledger.Holds store runs steps) (hnames : ledger.runs ≠ ledger.steps)
    (update : Run) :
    ledger.Holds (store.update ledger.runs update.id update.toPatch).2 runs steps ∨
      ∃ before run inputEvent after, runs = before ++ (run, inputEvent) :: after ∧
        ledger.Holds (store.update ledger.runs update.id update.toPatch).2
          (before ++ (run.patched update, inputEvent) :: after) steps := by
  rcases MemoryStore.exists_first Run.keeping runs update.id with
    hnone | ⟨before, ⟨run, inputEvent⟩, after, rfl, hbefore, hid⟩
  · obtain ⟨members, hpatch, -⟩ := update.isRecord_toPatch
    rw [hpatch, h.runs.update_absent hnone]
    exact Or.inl h
  · refine Or.inr ⟨before, run, inputEvent, after, rfl, ?_⟩
    have hid : run.id = update.id := hid
    exact h.update_run_at hnames (hid ▸ hbefore) update hid.symm

theorem update_step (h : ledger.Holds store runs steps) (hnames : ledger.runs ≠ ledger.steps)
    (update : RunStep) :
    ledger.Holds (store.update ledger.steps update.id update.toPatch).2 runs steps ∨
      ∃ before step after, steps = before ++ step :: after ∧
        ledger.Holds (store.update ledger.steps update.id update.toPatch).2 runs
          (before ++ step.patched update :: after) := by
  rcases MemoryStore.exists_first RunStep.keeping steps update.id with
    hnone | ⟨before, step, after, rfl, hbefore, hid⟩
  · obtain ⟨members, hpatch, -⟩ := update.isRecord_toPatch
    rw [hpatch, h.steps.update_absent hnone]
    exact Or.inl h
  · refine Or.inr ⟨before, step, after, rfl, ?_⟩
    have hid : step.id = update.id := hid
    exact h.update_step_at hnames (hid ▸ hbefore) update hid.symm

end FlowEngine.Ledger.Holds
