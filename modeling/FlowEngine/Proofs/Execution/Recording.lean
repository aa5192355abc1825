import FlowEngine.Proofs.Execution.Order
import FlowEngine.Proofs.Execution.Outcome
import FlowEngine.Proofs.Ledger.Record
/-!
# `FlowEngine.Proofs.Execution.Recording` — what is recorded of a run, and when

Of everything in the log of a run, two kinds of entry leave a trace outside: a call that the
executor makes on the store, and the work of a handler.  These are the deeds of the run.  They
come in one order whatever the store answers: the run is recorded as running; at each node a step
is recorded as running, then the handler works, and then the step is recorded as ended; at last
the run is recorded as ended.

The store has a say in one thing only.  A creation that fails, or that is answered without an
identifier, leaves nothing to update, and the step is not recorded again.
-/

namespace FlowEngine

/-! ## Deeds -/

namespace Entry

/-- The executor has called on the store, or a handler has worked. -/
def isDeed : Entry → Bool
  | asked exchange => exchange.action.isStoreCall
  | worked _ _ _ _ => true

def invoked? : Entry → Option String
  | asked _ => none
  | worked _ context _ _ => some context.nodeId

end Entry

def Entry.invocations (log : List Entry) : List String := log.filterMap Entry.invoked?

namespace Visit

variable {executor : Executor} {run : Run} {visit : Visit}

def deeds (executor : Executor) (run : Run) (visit : Visit) : List Entry :=
  .asked ⟨.create executor.settings.ledger.steps (visit.begunStep run).toRecord, visit.created⟩ ::
    (visit.workLog executor run ++ visit.saveLog executor run)

def isServed (executor : Executor) (visit : Visit) : Bool :=
  executor.registry.contains visit.node.kind

theorem filter_isDeed_log :
    (visit.log executor run).filter Entry.isDeed = visit.deeds executor run := by
  have hwork : (visit.workLog executor run).filter Entry.isDeed = visit.workLog executor run := by
    unfold workLog
    split <;> rfl
  have hsave : (visit.saveLog executor run).filter Entry.isDeed = visit.saveLog executor run := by
    unfold saveLog
    split <;> rfl
  rw [log, List.filter_append, List.filter_append, List.filter_append, List.filter_append, hwork,
    hsave]
  show [_] ++ visit.workLog executor run ++ [] ++ visit.saveLog executor run ++ [] = _
  rw [List.append_nil, List.append_nil]
  rfl

theorem invocations_log : Entry.invocations (visit.log executor run) =
    if visit.isServed executor then [visit.node.id] else [] := by
  have hwork : Entry.invocations (visit.workLog executor run) =
      if visit.isServed executor then [visit.node.id] else [] := by
    unfold workLog isServed Registry.contains
    cases executor.registry.resolve? visit.node.kind <;> rfl
  have hsave : Entry.invocations (visit.saveLog executor run) = [] := by
    unfold saveLog
    split <;> rfl
  unfold Entry.invocations at hwork hsave ⊢
  rw [log, List.filterMap_append, List.filterMap_append, List.filterMap_append,
    List.filterMap_append, hwork, hsave]
  show [] ++ _ ++ [] ++ [] ++ [] = _
  rw [List.append_nil, List.append_nil, List.append_nil, List.nil_append]

theorem invocations_logs (visits : List Visit) :
    Entry.invocations (logs executor run visits) = ids (visits.filter (isServed executor)) := by
  induction visits with
  | nil => rfl
  | cons visit later ih =>
      rw [logs, List.flatMap_cons, Entry.invocations, List.filterMap_append, ← Entry.invocations,
        ← Entry.invocations, ← logs, ih, invocations_log]
      by_cases h : visit.isServed executor <;> simp [h, ids]

end Visit

namespace Chronicle

variable {executor : Executor} {run : Run} {flow : Flow} {chronicle : Chronicle}

theorem invocations_log : Entry.invocations (chronicle.log executor run flow) =
    Visit.ids (chronicle.visits.filter (Visit.isServed executor)) := by
  have hvisits := @Visit.invocations_logs executor run.running chronicle.visits
  unfold Entry.invocations at hvisits ⊢
  rw [log, List.filterMap_append, List.filterMap_append, hvisits]
  show [] ++ _ ++ [] = _
  rw [List.append_nil, List.nil_append]

end Chronicle

/-! ## What is written -/

/-- The update of a run's record tells where the run stands. -/
def Run.IsSavedBy (run : Run) (ledger : Ledger) (entry : Entry) : Prop :=
  ∃ patch saved, entry = .asked ⟨.update ledger.runs run.id patch, saved⟩ ∧
    patch.get? "status" = some (.string run.status.text) ∧
    patch.get? "finished_at" = run.finishedAt.map Timestamp.toJson

/-- The record of a step that has begun. -/
structure RunStep.IsBegunBy (step : RunStep) (runId : String) (record : Json) : Prop where
  runId : record.get? "run_id" = some (.string runId)
  nodeId : record.get? "node_id" = some (.string step.nodeId)
  nodeType : record.get? "node_type" = some (.string step.nodeType)
  running : record.get? "status" = some (.string "running")
  unfinished : record.get? "finished_at" = none

/-- The patch of a step that has ended. -/
structure RunStep.IsEndedBy (step : RunStep) (patch : Json) : Prop where
  status : patch.get? "status" = some (.string step.status.text)
  terminal : step.status = .success ∨ step.status = .failed
  finished : ∃ moment, step.finishedAt = some moment ∧
    patch.get? "finished_at" = some moment.toJson

/-- The deeds at a node: a creation, the work of the handler if there is one, and an update if the
creation has given an identifier. -/
structure RunStep.IsRecordedBy (step : RunStep) (executor : Executor) (runId : String)
    (record : Json) (created : Except StoreError Json) (work saved : List Entry) : Prop where
  begun : step.IsBegunBy runId record
  unserved : executor.registry.resolve? step.nodeType = none → work = []
  served : ∀ handler, executor.registry.resolve? step.nodeType = some handler →
    ∃ context transcript result, work = [.worked handler context transcript result] ∧
      context.runId = runId ∧ context.nodeId = step.nodeId ∧
      (handler.execute context).Leads transcript result
  refused : ∀ e, created = .error e → saved = []
  nameless : ∀ answer, created = .ok answer → (∀ id, answer.get? "id" ≠ some (.string id)) →
    saved = []
  ended : ∀ answer id, created = .ok answer → answer.get? "id" = some (.string id) →
    ∃ patch answered, step.IsEndedBy patch ∧
      saved = [.asked ⟨.update executor.settings.ledger.steps id patch, answered⟩]

namespace Visit

variable {executor : Executor} {run : Run} {visit : Visit}

theorem status_step : (visit.step executor run).status = .success ∨
    (visit.step executor run).status = .failed := by
  cases hr : visit.result with
  | ok out => exact Or.inl (step_of_ok hr).1
  | error e => exact Or.inr (step_of_error hr).1

theorem finishedAt_step : (visit.step executor run).finishedAt =
    some (visit.ended.latest visit.begun) := by
  unfold step openStep
  cases visit.recordId executor <;> cases visit.result <;> rfl

theorem isBegunBy_step :
    (visit.step executor run).IsBegunBy run.id (visit.begunStep run).toRecord where
  runId := RunStep.get?_toRecord _ _
  nodeId := by
    rw [nodeId_step]
    exact RunStep.get?_toRecord _ _
  nodeType := by
    rw [nodeType_step]
    exact RunStep.get?_toRecord _ _
  running := RunStep.get?_toRecord _ _
  unfinished := RunStep.get?_toRecord _ _

theorem isEndedBy_step :
    (visit.step executor run).IsEndedBy (visit.step executor run).toPatch where
  status := RunStep.get?_toPatch _ _
  terminal := status_step
  finished := by
    refine ⟨_, finishedAt_step, ?_⟩
    rw [RunStep.get?_toPatch, finishedAt_step]
    rfl

/-- A step is updated only under the identifier that its creation was answered with. -/
theorem saveLog_eq : visit.saveLog executor run =
    match visit.recordId executor with
    | .ok id => [.asked ⟨.update executor.settings.ledger.steps id
        (visit.step executor run).toPatch, visit.saved⟩]
    | .error _ => [] := by
  have hid : ∀ id, visit.recordId executor = .ok id → (visit.step executor run).id = id := by
    intro id hid
    unfold step openStep
    rw [hid]
    cases visit.result <;> rfl
  unfold saveLog
  cases hr : visit.recordId executor with
  | ok id => rw [hid id hr, openStep, hr]; rfl
  | error e => rw [openStep, hr]; rfl

theorem isRecordedBy_step (h : visit.IsWork executor run) :
    (visit.step executor run).IsRecordedBy executor run.id (visit.begunStep run).toRecord
      visit.created (visit.workLog executor run) (visit.saveLog executor run) where
  begun := isBegunBy_step
  unserved := by
    intro hnone
    rw [nodeType_step] at hnone
    rw [workLog, hnone]
  served := by
    intro handler hsome
    rw [nodeType_step] at hsome
    unfold IsWork at h
    rw [hsome] at h
    refine ⟨_, _, _, ?_, rfl, nodeId_step.symm, h⟩
    rw [workLog, hsome]
  refused := by
    intro e he
    rw [saveLog_eq, recordId, he]
    rfl
  nameless := by
    intro answer hanswer hid
    have herror : ∃ e, Json.recordId executor.settings.ledger.steps answer = .error e := by
      unfold Json.recordId
      split
      · next id h => exact absurd h (hid id)
      · exact ⟨_, rfl⟩
    obtain ⟨e, he⟩ := herror
    rw [saveLog_eq, recordId, hanswer, Except.bind, he]
  ended := by
    intro answer id hanswer hid
    have hrecord : Json.recordId executor.settings.ledger.steps answer = .ok id := by
      rw [Json.recordId, hid]
    refine ⟨_, visit.saved, isEndedBy_step, ?_⟩
    rw [saveLog_eq, recordId, hanswer, Except.bind, hrecord]

end Visit

/-! ## What is recorded of a run -/

namespace Chronicle

variable {executor : Executor} {run : Run} {flow : Flow} {chronicle : Chronicle}

theorem filter_isDeed_log : (chronicle.log executor run flow).filter Entry.isDeed =
    .asked ⟨.update executor.settings.ledger.runs run.id run.running.toPatch,
        chronicle.started⟩ ::
      ((chronicle.visits.map (Visit.deeds executor run.running)).flatten ++
        [.asked ⟨.update executor.settings.ledger.runs run.id (chronicle.final run).toPatch,
          chronicle.finished⟩]) := by
  have hvisits : (Visit.logs executor run.running chronicle.visits).filter Entry.isDeed =
      (chronicle.visits.map (Visit.deeds executor run.running)).flatten := by
    rw [Visit.logs, List.filter_flatMap, List.flatMap_def]
    simp only [Visit.filter_isDeed_log]
  rw [log, List.filter_append, List.filter_append, hvisits]
  rfl

end Chronicle

namespace Executor

/-- Whatever the store answers, a run is recorded as running, then each of its steps as running,
worked at and ended, one after the other, and then the run as ended; no handler is invoked twice. -/
theorem execute_recorded (executor : Executor) (run : Run) (flow : Flow) (input : Json)
    (hq : run.status = .queued) {t : Transcript} {outcome : Except FlowError RunReport}
    (h : (executor.execute run flow input).Leads t outcome) :
    ∃ (log : List Entry) (report : RunReport) (first last : Entry) (courses : List (List Entry)),
      t = Entry.transcripts log ∧ outcome = .ok report ∧
      log.filter Entry.isDeed = first :: (courses.flatten ++ [last]) ∧
      run.running.IsSavedBy executor.settings.ledger first ∧
      List.Forall₂ (fun step course => ∃ record created work saved,
        course = .asked ⟨.create executor.settings.ledger.steps record, created⟩ ::
          (work ++ saved) ∧
        step.IsRecordedBy executor run.id record created work saved) report.steps courses ∧
      report.steps.map RunStep.nodeId = report.executed ∧
      report.run.IsSavedBy executor.settings.ledger last ∧
      report.run.id = run.id ∧ report.run.isFinished = true ∧ report.run.finishedAt.isSome ∧
      (Entry.invocations log).Nodup := by
  obtain ⟨chronicle, htour, ht, houtcome⟩ := Program.leads_execute hq h
  have hsettled := htour.settled
  refine ⟨chronicle.log executor run flow, chronicle.report executor run flow input, _, _, _, ht,
    houtcome, Chronicle.filter_isDeed_log, ?_, ?_, hsettled.nodes, ?_, rfl, hsettled.finished,
    hsettled.finishedAt, ?_⟩
  · exact ⟨_, _, rfl, Run.get?_toPatch _ _, Run.get?_toPatch _ _⟩
  · rw [Chronicle.report, List.forall₂_map_left_iff, List.forall₂_map_right_iff,
      List.forall₂_same]
    intro visit hvisit
    exact ⟨_, _, _, _, rfl, Visit.isRecordedBy_step (htour.inTurn.isWork visit hvisit)⟩
  · exact ⟨_, _, rfl, Run.get?_toPatch _ _, Run.get?_toPatch _ _⟩
  · rw [Chronicle.invocations_log]
    exact htour.nodup_ids.sublist (List.filter_sublist.map _)

/-- The line of three nodes, with an edge that leads back to its trigger. -/
def fadingRound : Flow :=
  { fadingLine with
    canvas := { fadingLine.canvas with
      edges := { source := "m", target := "t" } :: fadingLine.canvas.edges } }

theorem recorded_fadingRound :
    ∃ (t : Transcript) (outcome : Except FlowError RunReport),
      (fading.execute (.queued "f" .manual false ⟨0, 0⟩) fadingRound .null).Leads t outcome ∧
      ∃ (log : List Entry) (report : RunReport) (first last : Entry)
        (courses : List (List Entry)), t = Entry.transcripts log ∧ outcome = .ok report ∧
        log.filter Entry.isDeed = first :: (courses.flatten ++ [last]) ∧ courses.length = 3 ∧
        report.executed = ["t", "m", "x"] ∧ (Entry.invocations log).Nodup := by
  let run : Run := .queued "f" .manual false ⟨0, 0⟩
  obtain ⟨t, h⟩ := Program.leads_runWith recording (fading.execute run fadingRound .null) ()
  obtain ⟨log, report, first, last, courses, ht, houtcome, hlog, -, hcourses, hnodes, -, -, -, -,
    hnodup⟩ := execute_recorded fading run fadingRound .null rfl h
  have hends : (((fading.execute run fadingRound .null).runWith recording ()).1.toOption.map
      RunReport.executed) = some ["t", "m", "x"] := rfl
  rw [houtcome] at hends
  have hexecuted : report.executed = ["t", "m", "x"] := Option.some.inj hends
  refine ⟨t, _, h, log, report, first, last, courses, ht, houtcome, hlog, ?_, hexecuted, hnodup⟩
  rw [← hcourses.length_eq, ← List.length_map RunStep.nodeId, hnodes, hexecuted]
  rfl

end Executor

end FlowEngine
