import FlowEngine.Proofs.Execution.Data
import FlowEngine.Proofs.Execution.Outcome
import FlowEngine.Proofs.Node.Notices
/-!
# `FlowEngine.Proofs.Execution.Story` — what a run tells its listeners

A run says that it has started, tells of its nodes one after the other, and says that it has ended.
What is told of a node is framed, too: that it has begun, whatever the node has to say, and then,
once, how it has ended.  Between these events there are only those of the handlers, so the story has
this form if the handlers are discreet.

The telling of a node is found by opening the log of its visit (`Visit.telling_eq`), the story of a
run by putting together the tellings of its visits (`Chronicle.events_log`).  Where a failure may
stand in it is the shape of a run again (`Tour.ends`).
-/

namespace FlowEngine

def Event.isFailure : Event → Bool
  | .nodeFailed .. => true
  | _ => false

/-! ## The telling of a node -/

/-- Some events tell of a step: that its node has begun, what the node has had to say, and how it has
ended, with the output that is kept of it or with the error of the step. -/
inductive RunStep.ToldBy (step : RunStep) (outputs : Json.Members) : List Event → Prop where
  | completed (begun : Timestamp) (notices : List Notice) {output : Json} (millis : Nat)
      (ended : Timestamp) :
      step.status = .success → step.output = snapshot output →
      Json.lookup step.nodeId outputs = some output →
      step.ToldBy outputs (.nodeStarted step.runId step.nodeId step.nodeType begun ::
        (notices.map (.nodeNotice step.runId step.nodeId) ++
          [.nodeCompleted step.runId step.nodeId output millis ended]))
  | failed (begun : Timestamp) (notices : List Notice) {error : String} (ended : Timestamp) :
      step.status = .failed → step.error = some error →
      step.ToldBy outputs (.nodeStarted step.runId step.nodeId step.nodeType begun ::
        (notices.map (.nodeNotice step.runId step.nodeId) ++
          [.nodeFailed step.runId step.nodeId error ended]))

namespace Visit

variable {executor : Executor} {run : Run} {visit : Visit} {visits : List Visit}

def telling (executor : Executor) (run : Run) (visit : Visit) : List Event :=
  (Entry.transcripts (visit.log executor run)).events

theorem telling_eq (hdiscreet : executor.registry.Discreet) (h : visit.IsWork executor run) :
    ∃ notices : List Notice, visit.telling executor run =
      .nodeStarted run.id visit.node.id visit.node.kind visit.announced ::
        (notices.map (.nodeNotice run.id visit.node.id) ++
          [.nodeEnded run.id visit.node.id visit.result (visit.stopped - visit.watch)
            visit.told]) := by
  have hwork : ∃ notices : List Notice,
      visit.work.events = notices.map (.nodeNotice run.id visit.node.id) := by
    unfold IsWork at h
    cases hr : executor.registry.resolve? visit.node.kind with
    | some handler =>
        rw [hr] at h
        exact (hdiscreet handler (Registry.mem_of_resolve? hr) _).events h
    | none =>
        rw [hr] at h
        rw [h.1]
        exact ⟨[], rfl⟩
  have hsave : (Entry.transcripts (visit.saveLog executor run)).events = [] := by
    unfold saveLog
    split <;> rfl
  obtain ⟨notices, hnotices⟩ := hwork
  refine ⟨notices, ?_⟩
  simp only [telling, log, Entry.transcripts_append, Transcript.events_append,
    Program.transcripts_workLog h, hnotices, hsave, List.append_nil]
  rw [List.append_assoc, List.append_assoc]
  rfl

theorem toldBy_step {outputs : Json.Members} (hdiscreet : executor.registry.Discreet)
    (h : visit.IsWork executor run)
    (houtputs : ∀ out, visit.result = .ok out →
      Json.lookup visit.node.id outputs = some out.output) :
    (visit.step executor run).ToldBy outputs (visit.telling executor run) := by
  obtain ⟨notices, hnotices⟩ := telling_eq hdiscreet h
  rw [hnotices]
  have hids : (visit.step executor run).runId = run.id ∧
      (visit.step executor run).nodeId = visit.node.id ∧
      (visit.step executor run).nodeType = visit.node.kind := ⟨runId_step, nodeId_step, nodeType_step⟩
  obtain ⟨hrun, hnode, htype⟩ := hids
  rw [← hrun, ← hnode, ← htype]
  cases hr : visit.result with
  | ok out =>
      obtain ⟨hstatus, houtput⟩ := @step_of_ok executor run visit out hr
      refine .completed visit.announced notices _ visit.told hstatus houtput ?_
      rw [hnode]
      exact houtputs out hr
  | error e =>
      obtain ⟨hstatus, herror⟩ := @step_of_error executor run visit e hr
      exact .failed visit.announced notices visit.told hstatus herror

theorem events_logs (visits : List Visit) :
    (Entry.transcripts (logs executor run visits)).events =
      (visits.map (telling executor run)).flatten := by
  induction visits with
  | nil => rfl
  | cons visit later ih =>
      rw [transcripts_logs_cons, Transcript.events_append, ih, List.map_cons, List.flatten_cons]
      rfl

/-! ### Failures -/

theorem filter_isFailure_notices (runId nodeId : String) (notices : List Notice) :
    (notices.map (.nodeNotice runId nodeId)).filter Event.isFailure = [] := by
  induction notices with
  | nil => rfl
  | cons notice later ih => exact ih

theorem failures_telling (hdiscreet : executor.registry.Discreet) (h : visit.IsWork executor run) :
    (visit.telling executor run).filter Event.isFailure =
      match visit.result with
      | .ok _ => []
      | .error e => [.nodeFailed run.id visit.node.id e.message visit.told] := by
  obtain ⟨notices, hnotices⟩ := telling_eq hdiscreet h
  rw [hnotices, List.filter_cons_of_neg Bool.false_ne_true, List.filter_append,
    filter_isFailure_notices, List.nil_append]
  cases visit.result <;> rfl

theorem failures_of_passed (hdiscreet : executor.registry.Discreet)
    (hwork : ∀ visit ∈ visits, visit.IsWork executor run)
    (hpassed : ∀ visit ∈ visits, visit.Passed) :
    (visits.map (telling executor run)).flatten.filter Event.isFailure = [] := by
  induction visits with
  | nil => rfl
  | cons visit later ih =>
      obtain ⟨hvisit, hlater⟩ := List.forall_mem_cons.mp hwork
      obtain ⟨⟨out, hout⟩, hpassed⟩ := List.forall_mem_cons.mp hpassed
      rw [List.map_cons, List.flatten_cons, List.filter_append, ih hlater hpassed,
        failures_telling hdiscreet hvisit, hout]
      rfl

end Visit

/-! ## The story of a run -/

/-- Some events tell of a run as it is reported: that it has started, then of each of its nodes in
order, and at last how it has ended.  A failure is told at most once, of the last node only, and if
the run has failed with a trigger to begin at. -/
structure RunReport.ToldBy (report : RunReport) (flow : Flow) (events : List Event) : Prop where
  course : ∃ (begun : Timestamp) (tellings : List (List Event)) (millis : Nat) (ended : Timestamp),
    List.Forall₂ (fun step telling => step.ToldBy report.outputs telling) report.steps tellings ∧
    events = .runStarted report.run.id flow.id begun :: (tellings.flatten ++
      [.runCompleted report.run.id report.run.status report.run.error millis ended])
  nodes : report.steps.map RunStep.nodeId = report.executed
  owner : ∀ step ∈ report.steps, step.runId = report.run.id
  once : (events.filter Event.isFailure).length ≤ 1
  last : ∀ runId nodeId error moment, Event.nodeFailed runId nodeId error moment ∈ events →
    report.executed.getLast? = some nodeId
  failed : (∃ event ∈ events, event.isFailure = true) ↔
    report.run.status = .failed ∧ flow.canvas.trigger?.isSome

theorem RunStep.ToldBy.runId {step : RunStep} {outputs : Json.Members} {telling : List Event}
    (h : step.ToldBy outputs telling) : ∀ event ∈ telling, event.runId = step.runId := by
  have hnotices : ∀ notices : List Notice,
      ∀ event ∈ notices.map (Event.nodeNotice step.runId step.nodeId), event.runId = step.runId :=
    fun notices => List.forall_mem_map.mpr fun _ _ => rfl
  cases h with
  | completed begun notices millis ended =>
      exact List.forall_mem_cons.mpr ⟨rfl, List.forall_mem_append.mpr
        ⟨hnotices notices, List.forall_mem_singleton.mpr rfl⟩⟩
  | failed begun notices ended =>
      exact List.forall_mem_cons.mpr ⟨rfl, List.forall_mem_append.mpr
        ⟨hnotices notices, List.forall_mem_singleton.mpr rfl⟩⟩

theorem RunStep.runId_of_toldBy {steps : List RunStep} {outputs : Json.Members}
    {tellings : List (List Event)} {runId : String}
    (h : List.Forall₂ (fun step telling => step.ToldBy outputs telling) steps tellings)
    (howner : ∀ step ∈ steps, step.runId = runId) :
    ∀ event ∈ tellings.flatten, event.runId = runId := by
  induction h with
  | nil => exact List.forall_mem_nil _
  | cons htold _ ih =>
      obtain ⟨hfirst, hlater⟩ := List.forall_mem_cons.mp howner
      rw [List.flatten_cons]
      refine List.forall_mem_append.mpr ⟨?_, ih hlater⟩
      intro event hevent
      exact (htold.runId event hevent).trans hfirst

/-- All that is told of a run is told in its name. -/
theorem RunReport.ToldBy.runId {report : RunReport} {flow : Flow} {events : List Event}
    (h : report.ToldBy flow events) : ∀ event ∈ events, event.runId = report.run.id := by
  obtain ⟨begun, tellings, millis, ended, htellings, rfl⟩ := h.course
  exact List.forall_mem_cons.mpr ⟨rfl, List.forall_mem_append.mpr
    ⟨RunStep.runId_of_toldBy htellings h.owner, List.forall_mem_singleton.mpr rfl⟩⟩

namespace Chronicle

variable {executor : Executor} {run : Run} {flow : Flow} {input : Json} {chronicle : Chronicle}

theorem events_log : (Entry.transcripts (chronicle.log executor run flow)).events =
    .runStarted run.id flow.id chronicle.announced ::
      ((chronicle.visits.map (Visit.telling executor run.running)).flatten ++
        [.runCompleted run.id (chronicle.final run).status (chronicle.final run).error
          (chronicle.stopped - chronicle.watch) chronicle.ended]) := by
  rw [log, Entry.transcripts_append, Entry.transcripts_append, Transcript.events_append,
    Transcript.events_append, Visit.events_logs]
  rfl

/-- Either no failure is told and every visit has passed, or the failure of the last one is. -/
theorem failures_log (hdiscreet : executor.registry.Discreet)
    (htour : executor.Tour run.running flow input chronicle.visits) :
    (Entry.transcripts (chronicle.log executor run flow)).events.filter Event.isFailure = [] ∧
        (∀ visit ∈ chronicle.visits, visit.Passed) ∨
      ∃ (earlier : List Visit) (last : Visit) (e : NodeError), chronicle.visits = earlier ++ [last] ∧
        (∀ visit ∈ earlier, visit.Passed) ∧ last.result = .error e ∧
        (Entry.transcripts (chronicle.log executor run flow)).events.filter Event.isFailure =
          [.nodeFailed run.id last.node.id e.message last.told] := by
  have hwork := htour.inTurn.isWork
  have hends := htour.ends
  -- Neither the first event of a run nor its last is the failure of a node.
  have hframe : (Entry.transcripts (chronicle.log executor run flow)).events.filter
      Event.isFailure = (chronicle.visits.map (Visit.telling executor run.running)).flatten.filter
        Event.isFailure := by
    rw [events_log, List.filter_cons_of_neg Bool.false_ne_true, List.filter_append]
    exact List.append_nil _
  rw [hframe]
  -- The visits are a field of the chronicle; `cases` needs a variable in their place.
  generalize chronicle.visits = visits at hwork hends
  cases hends with
  | passed hall => exact Or.inl ⟨Visit.failures_of_passed hdiscreet hwork hall, hall⟩
  | @failed earlier last e hall he =>
      refine Or.inr ⟨earlier, last, e, rfl, hall, he, ?_⟩
      obtain ⟨hearlier, hlast⟩ := List.forall_mem_append.mp hwork
      rw [List.map_append, List.flatten_append, List.filter_append,
        Visit.failures_of_passed hdiscreet hearlier hall, List.map_singleton,
        List.flatten_singleton, Visit.failures_telling hdiscreet (hlast last List.mem_cons_self), he]
      rfl

theorem toldBy_report (hdiscreet : executor.registry.Discreet)
    (htour : executor.Tour run.running flow input chronicle.visits) :
    (chronicle.report executor run flow input).ToldBy flow
      (Entry.transcripts (chronicle.log executor run flow)).events := by
  have hstatus := @final_status_eq_failed run chronicle
  have hfailures := failures_log hdiscreet htour
  refine
    { course := ?_
      nodes := htour.settled.nodes
      owner := List.forall_mem_map.mpr fun _ _ => Visit.runId_step
      once := ?_
      last := ?_
      failed := ?_ }
  · refine ⟨chronicle.announced, chronicle.visits.map (Visit.telling executor run.running), _,
      chronicle.ended, ?_, events_log⟩
    rw [report, List.forall₂_map_left_iff, List.forall₂_map_right_iff, List.forall₂_same]
    intro visit hvisit
    refine Visit.toldBy_step hdiscreet (htour.inTurn.isWork visit hvisit) ?_
    intro out hout
    have hkept : visit.output? = some out.output := Visit.output?_eq_some_iff.mpr ⟨out, hout, rfl⟩
    exact (Visit.lookup_leaveAll htour.nodup_ids _ _ _ fun _ => rfl).mpr
      (Or.inr ⟨visit, hvisit, rfl, hkept⟩)
  · rcases hfailures with ⟨hnone, -⟩ | ⟨earlier, last, e, -, -, -, hone⟩
    · rw [hnone]
      exact Nat.zero_le 1
    · rw [hone]
      exact Nat.le_refl 1
  · intro runId nodeId error moment hmem
    have hfiltered := (List.mem_filter (p := Event.isFailure)).mpr ⟨hmem, rfl⟩
    rcases hfailures with ⟨hnone, -⟩ | ⟨earlier, last, e, hvisits, -, -, hone⟩
    · rw [hnone] at hfiltered
      cases hfiltered
    · rw [hone] at hfiltered
      obtain ⟨-, rfl, -, -⟩ := Event.nodeFailed.inj (List.mem_singleton.mp hfiltered)
      rw [report, hvisits, List.map_append, List.map_singleton, List.getLast?_concat]
  · rw [report, hstatus]
    rcases hfailures with ⟨hnone, hall⟩ | ⟨earlier, last, e, hvisits, hall, he, hone⟩
    · constructor
      · rintro ⟨event, hmem, hfailure⟩
        have hfiltered := List.mem_filter.mpr ⟨hmem, hfailure⟩
        rw [hnone] at hfiltered
        cases hfiltered
      · rintro ⟨hfailed, htrigger⟩
        rw [htour.runError?_eq_none_iff.mpr ⟨htrigger, hall⟩] at hfailed
        cases hfailed
    · constructor
      · intro _
        refine ⟨?_, ?_⟩
        · rw [hvisits, Visit.runError?_append hall he]
          rfl
        · rw [Option.isSome_iff_ne_none, Ne, ← htour.eq_nil_iff, hvisits]
          exact List.append_ne_nil_of_right_ne_nil _ (List.cons_ne_nil _ _)
      · intro _
        have hmem : Event.nodeFailed run.id last.node.id e.message last.told ∈
            (Entry.transcripts (chronicle.log executor run flow)).events.filter Event.isFailure := by
          rw [hone]
          exact List.mem_cons_self
        obtain ⟨hmem, hfailure⟩ := List.mem_filter.mp hmem
        exact ⟨_, hmem, hfailure⟩

end Chronicle

namespace Executor

variable {executor : Executor} {run : Run} {flow : Flow} {input : Json} {t : Transcript}
  {outcome : Except FlowError RunReport}

/-- Whatever the world answers, what a queued run publishes is the story of its report. -/
theorem toldBy_execute (hdiscreet : executor.registry.Discreet) (hq : run.status = .queued)
    (h : (executor.execute run flow input).Leads t outcome) :
    ∃ report, outcome = .ok report ∧ report.run.id = run.id ∧ report.ToldBy flow t.events := by
  obtain ⟨chronicle, htour, rfl, houtcome⟩ := Program.leads_execute hq h
  exact ⟨_, houtcome, rfl, Chronicle.toldBy_report hdiscreet htour⟩

theorem start_of_not_queued (hq : run.status ≠ .queued) :
    run.start = .error ⟨run.status, .running⟩ := by
  have hstays : run.status.mayBecome .running = false := by
    cases hs : run.status with
    | queued => exact absurd hs hq
    | _ => rfl
  rw [Run.start, Run.transition, hstays]
  rfl

/-- A run publishes nothing in another's name, also if it is turned away. -/
theorem runId_execute (hdiscreet : executor.registry.Discreet)
    (h : (executor.execute run flow input).Leads t outcome) :
    ∀ event ∈ t.events, event.runId = run.id := by
  by_cases hq : run.status = .queued
  · obtain ⟨report, -, hid, htold⟩ := toldBy_execute hdiscreet hq h
    rw [← hid]
    exact htold.runId
  · obtain ⟨watch, rest, rfl, hrest⟩ := Program.leads_elapsed_bind.mp h
    rw [start_of_not_queued hq] at hrest
    obtain ⟨rfl, -⟩ := Program.leads_pure.mp hrest
    exact List.forall_mem_nil _

end Executor

end FlowEngine
