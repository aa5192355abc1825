import FlowEngine.Proofs.Execution.Chronicle
/-!
# `FlowEngine.Proofs.Execution.Outcome` — how a run ends, and how its steps do

The status of the run, the statuses of its steps and the list of executed nodes are kept apart from
each other.  That they agree comes from the shape of a run: either every visit has passed, or the
last one has failed and those before it have passed (`Tour.ends`).  There is no third way, since a
walk goes on only behind a visit that has passed.

An error is always worded, whichever error it is and however deep it has come from
(`NodeError.message_ne_empty`); so a run that has failed never does so without a word.
-/

namespace FlowEngine

/-! ## Errors are worded -/

theorem TransportError.message_ne_empty (e : TransportError) : e.message ≠ "" := by
  cases e <;> simp [TransportError.message]

theorem StoreError.message_ne_empty (e : StoreError) : e.message ≠ "" := by
  cases e with
  | transport e => exact e.message_ne_empty
  | _ =>
      unfold StoreError.message
      simp

theorem NodeError.message_ne_empty (e : NodeError) : e.message ≠ "" := by
  cases e with
  | transport e => exact e.message_ne_empty
  | store e => exact e.message_ne_empty
  | _ =>
      unfold NodeError.message
      simp

/-! ## The shape of a run -/

namespace Visit

/-- The node has done its work. -/
def Passed (visit : Visit) : Prop := ∃ out, visit.result = .ok out

/-- A visit has passed if its step says so. -/
theorem passed_iff_status {executor : Executor} {run : Run} {visit : Visit} :
    visit.Passed ↔ (visit.step executor run).status = .success := by
  unfold Passed
  cases hr : visit.result with
  | ok out => simp [(step_of_ok hr).1]
  | error e => simp [(step_of_error hr).1]

/-- Every visit has passed, or the last has failed and those before it have passed. -/
inductive Ends : List Visit → Prop where
  | passed {visits : List Visit} : (∀ visit ∈ visits, visit.Passed) → Ends visits
  | failed (earlier : List Visit) {last : Visit} {e : NodeError} :
      (∀ visit ∈ earlier, visit.Passed) → last.result = .error e → Ends (earlier ++ [last])

theorem Ends.cons {visit : Visit} {later : List Visit} (hvisit : visit.Passed)
    (h : Ends later) : Ends (visit :: later) := by
  cases h with
  | passed hall => exact .passed (List.forall_mem_cons.mpr ⟨hvisit, hall⟩)
  | failed earlier hall he =>
      exact .failed (visit :: earlier) (List.forall_mem_cons.mpr ⟨hvisit, hall⟩) he

theorem failure?_of_passed {visits : List Visit} (h : ∀ visit ∈ visits, visit.Passed) :
    failure? visits = none := by
  induction visits with
  | nil => rfl
  | cons visit later ih =>
      obtain ⟨out, hout⟩ := h visit List.mem_cons_self
      rw [failure?_cons_of_ok hout]
      exact ih fun v hv => h v (List.mem_cons_of_mem _ hv)

theorem failure?_append {earlier : List Visit} {last : Visit} {e : NodeError}
    (he : last.result = .error e) : failure? (earlier ++ [last]) = some e := by
  rw [failure?, List.getLast?_append_cons]
  simp [he]

/-- A run all of whose visits have passed, and that has found its trigger, has no error. -/
theorem runError?_of_passed {visits : List Visit} (hne : visits ≠ [])
    (h : ∀ visit ∈ visits, visit.Passed) : runError? visits = none := by
  cases visits with
  | nil => exact absurd rfl hne
  | cons visit later =>
      obtain ⟨hvisit, hlater⟩ := List.forall_mem_cons.mp h
      obtain ⟨out, hout⟩ := hvisit
      rw [runError?_cons_of_ok hout, failure?_of_passed hlater]
      rfl

/-- A run whose last visit has failed has the error of that visit, and tells if it was the first. -/
theorem runError?_append {earlier : List Visit} {last : Visit} {e : NodeError}
    (h : ∀ visit ∈ earlier, visit.Passed) (he : last.result = .error e) :
    runError? (earlier ++ [last]) =
      some (if earlier.isEmpty then "Trigger failed: " ++ e.message else e.message) := by
  cases earlier with
  | nil => simp [runError?, failure?, he]
  | cons visit later =>
      obtain ⟨out, hout⟩ := h visit List.mem_cons_self
      rw [List.cons_append, runError?_cons_of_ok hout, failure?_append he]
      rfl

/-- The error of a run is never without a word. -/
theorem runError?_ne_empty {visits : List Visit} {text : String}
    (h : runError? visits = some text) : text ≠ "" := by
  match visits with
  | [] =>
      obtain rfl := Option.some.inj h
      unfold FlowError.message
      simp
  | [visit] =>
      obtain ⟨e, -, rfl⟩ := Option.map_eq_some_iff.mp h
      simp
  | first :: second :: later =>
      obtain ⟨e, -, rfl⟩ := Option.map_eq_some_iff.mp h
      exact e.message_ne_empty

end Visit

namespace Executor

variable {executor : Executor} {run : Run} {canvas : Canvas} {flow : Flow} {input : Json}

theorem Itinerary.ends {t : Traversal} {context : ExecutionContext} {visits : List Visit}
    (h : executor.Itinerary run canvas t context visits) : Visit.Ends visits := by
  induction h with
  | done => exact .passed (List.forall_mem_nil _)
  | failed _ _ he => exact .failed [] (List.forall_mem_nil _) he
  | passed _ _ hok _ ih => exact ih.cons ⟨_, hok⟩

theorem Tour.ends {visits : List Visit} (h : executor.Tour run flow input visits) :
    Visit.Ends visits := by
  cases h with
  | noTrigger => exact .passed (List.forall_mem_nil _)
  | failed _ _ he => exact .failed [] (List.forall_mem_nil _) he
  | passed _ _ hok hlater => exact hlater.ends.cons ⟨_, hok⟩

end Executor

/-! ## The shape of a report -/

namespace Chronicle

variable {executor : Executor} {run : Run} {flow : Flow} {input : Json} {chronicle : Chronicle}

theorem final_status_eq_failed :
    (chronicle.final run).status = .failed ↔ (Visit.runError? chronicle.visits).isSome := by
  unfold final Run.ended
  cases Visit.runError? chronicle.visits <;> simp

theorem final_error {text : String} (h : Visit.runError? chronicle.visits = some text) :
    (chronicle.final run).error = some text := by
  rw [final, Run.ended, h]
  rfl

theorem final_isFinished : (chronicle.final run).isFinished = true := by
  unfold final Run.ended
  cases Visit.runError? chronicle.visits <;> rfl

end Chronicle

namespace Executor

/-- How a run has ended and how its steps have, told in one. -/
structure Settled (flow : Flow) (report : RunReport) : Prop where
  nodes : report.steps.map RunStep.nodeId = report.executed
  succeeded : report.run.status = .success ↔
    flow.canvas.trigger?.isSome ∧ ∀ step ∈ report.steps, step.status = .success
  withoutTrigger : flow.canvas.trigger? = none → report.run.status = .failed ∧
    report.run.error = some "No trigger node found in flow" ∧ report.steps = []
  failed : flow.canvas.trigger?.isSome → report.run.status = .failed →
    ∃ earlier last text, report.steps = earlier ++ [last] ∧
      (∀ step ∈ earlier, step.status = .success) ∧ last.status = .failed ∧
      last.error = some text ∧
      report.run.error = some (if earlier.isEmpty then "Trigger failed: " ++ text else text)
  worded : report.run.status = .failed → ∃ text, report.run.error = some text ∧ text ≠ ""
  finished : report.run.isFinished = true
  finishedAt : report.run.finishedAt.isSome

variable {executor : Executor} {run : Run} {flow : Flow} {input : Json}

/-- A run succeeds if it has found its trigger and every visit has passed. -/
theorem Tour.runError?_eq_none_iff {visits : List Visit}
    (h : executor.Tour run flow input visits) :
    Visit.runError? visits = none ↔
      flow.canvas.trigger?.isSome ∧ ∀ visit ∈ visits, visit.Passed := by
  rw [Option.isSome_iff_ne_none, Ne, ← h.eq_nil_iff]
  constructor
  · intro hnone
    refine ⟨?_, ?_⟩
    · rintro rfl
      cases hnone
    · cases h.ends with
      | passed hall => exact hall
      | failed earlier hall he =>
          rw [Visit.runError?_append hall he] at hnone
          cases hnone
  · rintro ⟨hne, hall⟩
    exact Visit.runError?_of_passed hne hall

theorem Tour.settled {chronicle : Chronicle}
    (h : executor.Tour run.running flow input chronicle.visits) :
    Settled flow (chronicle.report executor run flow input) where
  nodes := by
    rw [Chronicle.report, List.map_map]
    exact List.map_congr_left fun _ _ => Visit.nodeId_step
  succeeded := by
    rw [Chronicle.report, Chronicle.final_status_eq_success, h.runError?_eq_none_iff]
    simp only [List.forall_mem_map, ← Visit.passed_iff_status]
  withoutTrigger := by
    intro hnone
    have hnil := h.eq_nil_iff.mpr hnone
    have herror : Visit.runError? chronicle.visits = some FlowError.noTriggerNode.message := by
      rw [hnil, Visit.runError?]
    refine ⟨Chronicle.final_status_eq_failed.mpr (by rw [herror]; rfl),
      Chronicle.final_error herror, ?_⟩
    rw [Chronicle.report, hnil]
    rfl
  failed := by
    intro hsome hfailed
    have herror := Chronicle.final_status_eq_failed.mp hfailed
    have hends := h.ends
    -- The visits are a field of the chronicle; `cases` needs a variable in their place.
    generalize hvisits : chronicle.visits = visits at hends
    cases hends with
    | passed hall =>
        rw [h.runError?_eq_none_iff.mpr ⟨hsome, hvisits ▸ hall⟩] at herror
        cases herror
    | @failed earlier last e hall he =>
        refine ⟨earlier.map (Visit.step executor run.running),
          last.step executor run.running, e.message, ?_, ?_, (Visit.step_of_error he).1,
          (Visit.step_of_error he).2, ?_⟩
        · show chronicle.visits.map (Visit.step executor run.running) = _
          rw [hvisits, List.map_append, List.map_singleton]
        · exact List.forall_mem_map.mpr fun visit hvisit =>
            Visit.passed_iff_status.mp (hall visit hvisit)
        · rw [List.isEmpty_map]
          exact Chronicle.final_error (hvisits ▸ Visit.runError?_append hall he)
  worded := by
    intro hfailed
    have herror := Chronicle.final_status_eq_failed.mp hfailed
    obtain ⟨text, htext⟩ := Option.isSome_iff_exists.mp herror
    exact ⟨text, Chronicle.final_error htext, Visit.runError?_ne_empty htext⟩
  finished := Chronicle.final_isFinished
  finishedAt := rfl

/-- Whatever the world answers, a queued run comes to its end, and its report agrees with itself
on how. -/
theorem execute_settled (executor : Executor) (run : Run) (flow : Flow) (input : Json)
    (hq : run.status = .queued) {σ : Type}
    (answer : (action : Action) → σ → action.Reply × σ) (world : σ) :
    ∃ report, ((executor.execute run flow input).runWith answer world).1 = .ok report ∧
      Settled flow report := by
  obtain ⟨chronicle, t, htour, -, hreport⟩ := Program.runWith_execute hq answer world
  exact ⟨_, hreport, htour.settled⟩

/-- The line of three nodes fails at its last, with the error of that node. -/
theorem settled_fadingLine :
    ∃ report, ((fading.execute (.queued "f" .manual false ⟨0, 0⟩) fadingLine .null).runWith
        outage ()).1 = .ok report ∧
      Settled fadingLine report ∧ report.run.status = .failed ∧
      report.run.error = some NodeError.missingRecipient.message := by
  obtain ⟨report, hreport, hsettled⟩ := execute_settled fading (.queued "f" .manual false ⟨0, 0⟩)
    fadingLine .null rfl outage ()
  have hends : (((fading.execute (.queued "f" .manual false ⟨0, 0⟩) fadingLine .null).runWith
      outage ()).1.toOption.map fun report => (report.run.status, report.run.error)) =
      some (.failed, some NodeError.missingRecipient.message) := rfl
  rw [hreport] at hends
  simp only [Except.toOption, Option.map_some, Option.some.injEq, Prod.mk.injEq] at hends
  exact ⟨report, hreport, hsettled, hends⟩

end Executor

end FlowEngine
