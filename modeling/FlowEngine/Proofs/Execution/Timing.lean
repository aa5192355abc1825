import FlowEngine.Proofs.Execution.Readback
import FlowEngine.Proofs.Execution.Sparing
import FlowEngine.Proofs.Execution.Story
import FlowEngine.Proofs.Execution.Terminal
/-!
# `FlowEngine.Proofs.Execution.Timing` — the moments of a run and of its steps

A clock may show anything.  What ends a run or a step is the later one of two moments, that of its
end and that of its beginning, so nothing ends before it has begun, whatever the clock shows
(`Chronicle.timely_report`).  If the clock never goes back this makes no difference, and the moments
of a run stand in the order in which they were read: its nodes are executed one after the other
(`Chronicle.pairwise_moments`).

A stored step is put together of a record and a patch, which are written at different times.  The
patch goes to the record that the same step has begun, in any store and among any number of runs, as
long as nobody writes to the steps but who keeps them (`Engine.stored_timely`).  A handler may do so,
and then a stored step can end before it begins (`Engine.not_timely_backdated`).
-/

namespace FlowEngine

/-! ## Moments -/

/-- The run does not end before it begins. -/
def Run.Timely (run : Run) : Prop :=
  ∀ ended ∈ run.finishedAt, run.startedAt.notAfter ended = true

/-- The step does not end before it begins. -/
def RunStep.Timely (step : RunStep) : Prop :=
  ∀ ended ∈ step.finishedAt, step.startedAt.notAfter ended = true

instance (step : RunStep) : Decidable step.Timely :=
  inferInstanceAs (Decidable (∀ ended ∈ step.finishedAt, step.startedAt.notAfter ended = true))

/-- The run and its steps have ended, and not before they began. -/
structure RunReport.Timely (report : RunReport) : Prop where
  run : report.run.finishedAt.isSome = true ∧ report.run.Timely
  steps : ∀ step ∈ report.steps, step.finishedAt.isSome = true ∧ step.Timely

def RunStep.moments (step : RunStep) : List Timestamp := step.startedAt :: step.finishedAt.toList

/-- The moments of a run in the order of its story: its beginning, those of its steps one after the
other, and its end. -/
def RunReport.moments (report : RunReport) : List Timestamp :=
  report.run.startedAt ::
    (report.steps.flatMap RunStep.moments ++ report.run.finishedAt.toList)

/-! ## A run as it is reported -/

namespace Visit

variable {executor : Executor} {run : Run} {visit : Visit}

theorem timely_step : (visit.step executor run).Timely := by
  intro ended hended
  rw [finishedAt_step] at hended
  obtain rfl := Option.some.inj hended
  rw [startedAt_step]
  exact Timestamp.notAfter_latest _ _

theorem IsStep.timely {step : RunStep} (h : visit.IsStep executor run step) : step.Timely := by
  rcases h with ⟨id, rfl⟩ | rfl
  · intro ended hended
    cases hended
  · exact timely_step

/-- The moments of a list of visits are read off the clock in their order. -/
theorem sublist_moments (visits : List Visit) :
    (visits.flatMap fun visit => [visit.begun, visit.ended]).Sublist
      (Entry.readings (logs executor run visits)) := by
  induction visits with
  | nil => exact List.Sublist.refl _
  | cons visit later ih =>
      rw [readings_logs_cons]
      exact (((ih.cons _).cons_cons _).cons _).cons_cons _

/-- A step that has ended no earlier than it has begun keeps its moments as they were read. -/
theorem moments_step (h : visit.begun.notAfter visit.ended = true) :
    (visit.step executor run).moments = [visit.begun, visit.ended] := by
  rw [RunStep.moments, startedAt_step, finishedAt_step, Timestamp.latest_of_notAfter h]
  rfl

end Visit

namespace Chronicle

variable {executor : Executor} {run : Run} {flow : Flow} {input : Json} {chronicle : Chronicle}

/-- Whatever the clock has shown, nothing is reported that ends before it has begun. -/
theorem timely_report : (chronicle.report executor run flow input).Timely where
  run := by
    refine ⟨rfl, ?_⟩
    intro ended hended
    obtain rfl := Option.some.inj hended
    exact Timestamp.notAfter_latest _ _
  steps := by
    intro step hstep
    obtain ⟨visit, -, rfl⟩ := List.mem_map.mp hstep
    refine ⟨?_, Visit.timely_step⟩
    rw [Visit.finishedAt_step]
    rfl

/-- By a clock that never goes back, the moments of a run stand in the order of its story. -/
theorem pairwise_moments
    (h : (run.startedAt :: Entry.readings (chronicle.log executor run flow)).Pairwise
      fun a b => a.notAfter b = true) :
    (chronicle.report executor run flow input).moments.Pairwise
      fun a b => a.notAfter b = true := by
  rw [readings_log] at h
  -- Besides the moments of the run, the clock has been read for the events.
  have hread := h.sublist ((((Visit.sublist_moments chronicle.visits).append
    (List.Sublist.refl [chronicle.ended])).cons chronicle.announced).cons_cons run.startedAt)
  obtain ⟨hrun, hvisits⟩ := List.pairwise_cons.mp hread
  obtain ⟨hinner, -⟩ := List.pairwise_flatMap.mp (List.pairwise_append.mp hvisits).1
  have hended := hrun chronicle.ended (List.mem_append_right _ (List.mem_singleton_self _))
  have hsteps : (chronicle.report executor run flow input).steps.flatMap RunStep.moments =
      chronicle.visits.flatMap fun visit => [visit.begun, visit.ended] := by
    rw [report, List.flatMap_map]
    refine List.flatMap_congr fun visit hvisit => ?_
    have horder := (List.pairwise_cons.mp (hinner visit hvisit)).1
    exact Visit.moments_step (horder visit.ended (List.mem_singleton_self _))
  have hfinished : (chronicle.report executor run flow input).run.finishedAt =
      some (chronicle.ended.latest run.startedAt) := rfl
  rw [RunReport.moments, hsteps, hfinished, Timestamp.latest_of_notAfter hended]
  exact hread

end Chronicle

namespace Engine

open Transcript (Minds Shared given replay share writes writes_append writes_eq_nil)

variable {engine : Engine}

/-- A run that has been created and is executed comes to a report, in which nothing ends before it
has begun; and if the clock never goes back, its moments stand in order. -/
theorem reported_timely {flow executed : Flow} {triggerType : TriggerType} {input event : Json}
    {testMode : Bool} {before t : Transcript} {run : Run} {outcome : Except FlowError RunReport}
    (hcreated : (engine.createRun flow triggerType input testMode).Leads before (.ok run))
    (h : (engine.execute run executed event).Leads t outcome) :
    ∃ report, outcome = .ok report ∧ report.Timely ∧
      ((before ++ t).readings.Pairwise (fun a b => a.notAfter b = true) →
        report.moments.Pairwise fun a b => a.notAfter b = true) := by
  cases Program.leads_createRun hcreated with
  | @named queued created id _ _ _ hqueued _ hrest =>
      obtain ⟨rfl, hrun⟩ := hrest
      obtain rfl := Except.ok.inj hrun
      have hstatus : ({ queued with id } : Run).status = .queued := congrArg Run.status hqueued
      obtain ⟨chronicle, htells⟩ := Program.leads_execute hstatus h
      refine ⟨_, htells.outcome, Chronicle.timely_report, ?_⟩
      intro hrising
      refine Chronicle.pairwise_moments (hrising.sublist ?_)
      rw [htells.transcript]
      exact (Entry.sublist_readings _).cons_cons queued.startedAt

/-! ## Steps as they are stored -/

/-- No handler of a node of the flow writes to the collection, whatever the node is given. -/
def SparesBy (engine : Engine) (flow : Flow) (collection : String) : Prop :=
  ∀ node ∈ flow.canvas.nodes, ∀ handler, engine.registry.resolve? node.kind = some handler →
    ∀ run data, (handler.execute (node.seen run data)).Spares collection

def Call.flow : Call → Flow
  | .create started => started.flow
  | .execute _ flow _ => flow
  | .run started => started.flow
  | .start started => started.flow

section Writes

variable {flow : Flow} {run : Run} {input : Json} {t : Transcript}

/-- All that an execution writes to the steps keeps those of its visits. -/
theorem writes_steps_execute (hnames : engine.settings.ledger.runs ≠ engine.settings.ledger.steps)
    (hspares : engine.SparesBy flow engine.settings.ledger.steps)
    {outcome : Except FlowError RunReport} (h : (engine.execute run flow input).Leads t outcome) :
    ∃ visits : List Visit, writes engine.settings.ledger.steps t =
      visits.flatMap (Visit.calls engine run.running) := by
  by_cases hqueued : run.status = .queued
  · obtain ⟨chronicle, htells⟩ := Program.leads_execute hqueued h
    have hwork := htells.tour.inTurn.isWork
    refine ⟨chronicle.visits, ?_⟩
    rw [htells.transcript]
    refine Chronicle.writes_log_steps hnames hwork fun visit hvisit => ?_
    refine Visit.spares_of_resolved (hwork visit hvisit) fun handler hresolve => ?_
    exact hspares visit.node (htells.tour.mem_nodes visit hvisit) handler hresolve _ _
  · -- A run that is not queued is turned away before anything is written.
    obtain ⟨watch, rest, rfl, hrest⟩ := Program.leads_elapsed_bind.mp h
    rw [Executor.start_of_not_queued hqueued] at hrest
    obtain ⟨rfl, -⟩ := Program.leads_pure.mp hrest
    exact ⟨[], rfl⟩

/-- All that a call writes to the steps keeps those of the visits of one run. -/
theorem writes_steps_perform (hnames : engine.settings.ledger.runs ≠ engine.settings.ledger.steps)
    {call : Call} (hspares : engine.SparesBy call.flow engine.settings.ledger.steps)
    {outcome : Except FlowError Run} (h : (engine.perform call).Leads t outcome) :
    ∃ (run : Run) (visits : List Visit), writes engine.settings.ledger.steps t =
      visits.flatMap (Visit.calls engine run) := by
  have hnone : ∃ (run : Run) (visits : List Visit), ([] : Transcript) =
      visits.flatMap (Visit.calls engine run) := ⟨.queued "" .manual false ⟨0, 0⟩, [], rfl⟩
  cases call with
  | create start =>
      have hcreated := (spares_createRun _ _ _ _ hnames).forall_mem h
      rwa [writes_eq_nil hcreated]
  | execute run flow input =>
      change engine.SparesBy flow engine.settings.ledger.steps at hspares
      obtain ⟨t, t', report, rfl, hexecute, h'⟩ := Program.leads_bind.mp h
      obtain ⟨rfl, -⟩ := Program.leads_pure.mp h'
      rw [List.append_nil]
      exact ⟨_, writes_steps_execute hnames hspares hexecute⟩
  | run start =>
      change engine.SparesBy start.flow engine.settings.ledger.steps at hspares
      obtain ⟨t, t', report, rfl, hrun, h'⟩ := Program.leads_bind.mp h
      obtain ⟨rfl, -⟩ := Program.leads_pure.mp h'
      obtain ⟨before, rest, created, rfl, hcreate, hrest⟩ := Program.leads_bind.mp hrun
      have hcreated := (spares_createRun _ _ _ _ hnames).forall_mem hcreate
      rw [List.append_nil, writes_append, writes_eq_nil hcreated, List.nil_append]
      cases created with
      | error e =>
          obtain ⟨rfl, -⟩ := Program.leads_pure.mp hrest
          exact hnone
      | ok run => exact ⟨_, writes_steps_execute hnames hspares hrest⟩
  | start start =>
      change engine.SparesBy start.flow engine.settings.ledger.steps at hspares
      obtain ⟨t, t', report, rfl, hrun, h'⟩ := Program.leads_bind.mp h
      obtain ⟨rfl, -⟩ := Program.leads_pure.mp h'
      obtain ⟨before, rest, started, rfl, hstart, hrest⟩ := Program.leads_bind.mp hrun
      have hstarted := (spares_startRun _ _ _ _ hnames).forall_mem hstart
      rw [List.append_nil, writes_append, writes_eq_nil hstarted, List.nil_append]
      cases started with
      | error e =>
          obtain ⟨rfl, -⟩ := Program.leads_pure.mp hrest
          exact hnone
      | ok queued => exact ⟨_, writes_steps_execute hnames hspares hrest⟩

end Writes

section Several

variable {ι : Type} [DecidableEq ι] {calls : ι → Call}
  {left : ι → Program (Except FlowError Run)} {store current : MemoryStore}
  {history : List (Option ι × Exchange)}

/-- Calls that keep their steps themselves share the collection of the steps, and what one of them has
made of an empty one are steps of its visits. -/
theorem shared_steps (hnames : engine.settings.ledger.runs ≠ engine.settings.ledger.steps)
    (hspares : ∀ i, engine.SparesBy (calls i).flow engine.settings.ledger.steps)
    (h : Interleaved (fun i => engine.perform (calls i)) store left current history)
    (hasides : ∀ asked ∈ history, asked.1 = none →
      asked.2.action.written? ≠ some engine.settings.ledger.steps) :
    Shared engine.settings.ledger.steps history store current := by
  refine ⟨h.keeps, fun i => ?_, hasides⟩
  obtain ⟨rest, outcome, hleads⟩ := h.begun i
  obtain ⟨run, visits, hwrites⟩ := writes_steps_perform hnames (hspares i) hleads
  have hminds : Minds engine.settings.ledger.steps [] (share history i ++ rest) := by
    rw [← Transcript.minds_writes, hwrites]
    exact Visit.minds_flatMap_calls
  exact (Transcript.minds_append.mp hminds).1

/-- However any number of calls are interleaved with each other and with what does not write to the
steps, and however far they have come, each record of a step was there before or is that of a step
that does not end before it begins. -/
theorem stored_timely (hnames : engine.settings.ledger.runs ≠ engine.settings.ledger.steps)
    (hspares : ∀ i, engine.SparesBy (calls i).flow engine.settings.ledger.steps)
    (h : Interleaved (fun i => engine.perform (calls i)) store left current history)
    (hasides : ∀ asked ∈ history, asked.1 = none →
      asked.2.action.written? ≠ some engine.settings.ledger.steps) :
    ∀ record ∈ current.records engine.settings.ledger.steps,
      record ∈ store.records engine.settings.ledger.steps ∨
        ∃ step : RunStep, record = step.stored ∧ step.Timely := by
  have hshared := shared_steps hnames hspares h hasides
  intro record hrecord
  rw [hshared.records_eq, List.mem_append] at hrecord
  refine hrecord.imp_right fun hadded => ?_
  obtain ⟨i, hown⟩ := hshared.exists_share_of_mem hadded
  -- What the call would go on with is refused, so it changes nothing of what it has made.
  obtain ⟨rest, outcome, hleads, hrefused⟩ := h.begun_refused i
  have huntouched : ∀ exchange ∈ rest, exchange.touched? engine.settings.ledger.steps = none :=
    fun exchange hmem => Exchange.touched?_of_refused (hrefused exchange hmem) _
  obtain ⟨run, visits, hwrites⟩ := writes_steps_perform hnames (hspares i) hleads
  have hreplay : replay engine.settings.ledger.steps (share history i) [] =
      replay engine.settings.ledger.steps (visits.flatMap (Visit.calls engine run)) [] := by
    rw [← hwrites, Transcript.replay_writes, Transcript.replay_append,
      Transcript.replay_of_untouched huntouched]
  have hgiven : given engine.settings.ledger.steps (share history i) =
      given engine.settings.ledger.steps (visits.flatMap (Visit.calls engine run)) := by
    have hnone : given engine.settings.ledger.steps rest = [] :=
      congrArg (List.map Prod.fst) (Transcript.created_of_untouched huntouched)
    rw [← hwrites, Transcript.given_writes, Transcript.given_append, hnone, List.append_nil]
  rw [hreplay] at hown
  rcases Visit.mem_replay_flatMap_calls (fun _ _ => rfl) (hgiven ▸ hshared.nodup_given_share i)
    hown with hnone | ⟨visit, -, step, hstep, rfl⟩
  · cases hnone
  · exact ⟨step, rfl, hstep.timely⟩

end Several

/-- Whatever the clock shows, a run that is created and executed comes to a report in which nothing
ends before it has begun; and if the clock never goes back, its nodes have been executed one after
the other.  Nor does a stored step end before it begins, however many runs are on their way, as long
as no handler and nobody else writes to the steps. -/
theorem runs_timely (engine : Engine) :
    (∀ (flow executed : Flow) (triggerType : TriggerType) (input event : Json) (testMode : Bool)
        (before t : Transcript) (run : Run) (outcome : Except FlowError RunReport),
      (engine.createRun flow triggerType input testMode).Leads before (.ok run) →
      (engine.execute run executed event).Leads t outcome →
      ∃ report, outcome = .ok report ∧ report.Timely ∧
        ((before ++ t).readings.Pairwise (fun a b => a.notAfter b = true) →
          report.moments.Pairwise fun a b => a.notAfter b = true)) ∧
    (engine.settings.ledger.runs ≠ engine.settings.ledger.steps →
      ∀ {ι : Type} [DecidableEq ι] (calls : ι → Call) (store current : MemoryStore)
        (left : ι → Program (Except FlowError Run)) (history : List (Option ι × Exchange)),
      (∀ i, engine.SparesBy (calls i).flow engine.settings.ledger.steps) →
      Interleaved (fun i => engine.perform (calls i)) store left current history →
      (∀ asked ∈ history, asked.1 = none →
        asked.2.action.written? ≠ some engine.settings.ledger.steps) →
      ∀ record ∈ current.records engine.settings.ledger.steps,
        record ∈ store.records engine.settings.ledger.steps ∨
          ∃ step : RunStep, record = step.stored ∧ step.Timely) := by
  refine ⟨?_, ?_⟩
  · intro flow executed triggerType input event testMode before t run outcome hcreated hexecuted
    exact reported_timely hcreated hexecuted
  · intro hnames ι _ calls store current left history hspares h hasides
    exact stored_timely hnames hspares h hasides

/-! ### By two clocks, and with two runs at once -/

/-- A flow is run by hand in a store that is new, by a given clock: the run is created and executed,
and it comes to a report and to what is stored then. -/
structure RunBy (engine : Engine) (flow : Flow) (clock : Clock) (before rest : Transcript)
    (run : Run) (report : RunReport) (store : MemoryStore) : Prop where
  created : (engine.createRun flow .manual .null false).Leads before (.ok run)
  executed : (engine.execute run flow .null).Leads rest (.ok report)
  follows : clock.Follows 0 (before ++ rest).readings
  keeps : (before ++ rest).Keeps {} store

theorem exists_runBy (engine : Engine) (flow : Flow) (clock : Clock) {α : Type}
    (view : RunReport → MemoryStore → α) (a : α)
    (h : (((engine.runFlow flow .manual .null false).runWith (withClock clock MemoryStore.answer)
      (0, {})).1.toOption.map fun report => view report ((engine.runFlow flow .manual .null
        false).runWith (withClock clock MemoryStore.answer) (0, {})).2.2) = some a) :
    ∃ (before rest : Transcript) (run : Run) (report : RunReport) (store : MemoryStore),
      engine.RunBy flow clock before rest run report store ∧ view report store = a := by
  obtain ⟨t, hleads, hread, hkeeps⟩ := Program.leads_answer clock
    (engine.runFlow flow .manual .null false) 0 {}
  generalize (engine.runFlow flow .manual .null false).runWith
    (withClock clock MemoryStore.answer) (0, {}) = ended at h hleads hkeeps
  obtain ⟨outcome, n, store⟩ := ended
  cases outcome with
  | error e => cases h
  | ok report =>
      obtain ⟨before, rest, run, rfl, hcreated, hexecuted⟩ := Program.leads_runFlow_ok hleads
      exact ⟨before, rest, run, report, store, ⟨hcreated, hexecuted, hread, hkeeps⟩,
        Option.some.inj h⟩

/-- The line of three nodes by a clock that goes back with every reading and by one that goes on, and
two runs of it that take turns. -/
theorem runs_timely_fadingLine :
    (∃ (before rest : Transcript) (run : Run) (report : RunReport) (store : MemoryStore),
      RunBy Executor.fading Executor.fadingLine (fun n => ⟨-n, 0⟩) before rest run report store ∧
      report.Timely ∧ report.moments.map Timestamp.seconds = [0, -2, -2, -6, -6, -10, -10, 0]) ∧
    (∃ (before rest : Transcript) (run : Run) (report : RunReport) (store : MemoryStore),
      RunBy Executor.fading Executor.fadingLine (fun n => ⟨n, 0⟩) before rest run report store ∧
      report.moments.Pairwise (fun a b => a.notAfter b = true) ∧
      report.moments.map Timestamp.seconds = [0, 2, 4, 6, 8, 10, 12, 14]) ∧
    ∃ (left : Bool → Program (Except FlowError Run)) (current : MemoryStore)
        (history : List (Option Bool × Exchange)),
      Interleaved (fun _ => perform Executor.fading (.run fadingStart)) {} left current history ∧
      (current.records "run_steps").length = 6 ∧
      ∀ record ∈ current.records "run_steps", ∃ step : RunStep,
        record = step.stored ∧ step.Timely := by
  obtain ⟨hreported, hstored⟩ := runs_timely Executor.fading
  let seconds : RunReport → MemoryStore → List Int :=
    fun report _ => report.moments.map Timestamp.seconds
  refine ⟨?_, ?_, ?_⟩
  · obtain ⟨before, rest, run, report, store, hrun, hseconds⟩ :=
      exists_runBy Executor.fading Executor.fadingLine (fun n => ⟨-n, 0⟩) seconds
        [0, -2, -2, -6, -6, -10, -10, 0] (by decide +kernel)
    obtain ⟨_, heq, htimely, -⟩ := hreported _ _ _ _ _ _ _ _ _ _ hrun.created hrun.executed
    obtain rfl := Except.ok.inj heq
    exact ⟨before, rest, run, report, store, hrun, htimely, hseconds⟩
  · obtain ⟨before, rest, run, report, store, hrun, hseconds⟩ :=
      exists_runBy Executor.fading Executor.fadingLine (fun n => ⟨n, 0⟩) seconds
        [0, 2, 4, 6, 8, 10, 12, 14] (by decide +kernel)
    obtain ⟨_, heq, -, horder⟩ := hreported _ _ _ _ _ _ _ _ _ _ hrun.created hrun.executed
    obtain rfl := Except.ok.inj heq
    have hrising : ∀ n m : Nat, n ≤ m →
        (⟨n, 0⟩ : Timestamp).notAfter ⟨m, 0⟩ = true := by
      intro n m hle
      simp only [Timestamp.notAfter_iff]
      omega
    exact ⟨before, rest, run, report, store, hrun, horder (hrun.follows.rising hrising), hseconds⟩
  · let programs : Bool → Program (Except FlowError Run) :=
      fun _ => perform Executor.fading (.run fadingStart)
    have hstart : Interleaved programs {} programs {} [] := .start
    have hbegun := (hstart.next true rfl).next false rfl
    obtain ⟨t, -, hfirst⟩ := hbegun.finish (i := true) rfl
    obtain ⟨t', -, hboth⟩ := hfirst.finish (i := false) rfl
    have hspares : SparesBy Executor.fading Executor.fadingLine "run_steps" :=
      fun _ _ handler hresolve _ _ => fading_spares _ handler (Registry.mem_of_resolve? hresolve) _
    refine ⟨_, _, _, hboth, by decide +kernel, ?_⟩
    intro record hrecord
    have htimely := hstored (by decide) (fun _ => .run fadingStart) _ _ _ _ (fun _ => hspares) hboth
    refine (htimely ?_ record hrecord).resolve_left List.not_mem_nil
    intro asked hasked hnone
    refine absurd hnone (Transcript.owned_append (Transcript.owned_append ?_ true t) false t' asked
      hasked)
    exact Transcript.owned_append (Transcript.owned_append (List.forall_mem_nil _) true [_]) false [_]

/-! ### A handler that writes to the steps -/

/-- A flow that looks up the stored steps and gives the first of them another beginning. -/
def backdating : Flow :=
  { id := "f", name := "f"
    canvas :=
      { nodes :=
          [⟨"t", "trigger.manual", []⟩,
            ⟨"l", "pb.find", [("collection", .string "run_steps")]⟩,
            ⟨"u", "pb.update",
              [("collection", .string "run_steps"),
                ("id", .string "\x7b\x7binput.records.0.id\x7d\x7d"),
                ("data", .object [("started_at", .string "2030-01-01T00:00:00Z")])]⟩]
        edges := [{ source := "t", target := "l" }, { source := "l", target := "u" }] } }

/-- A stored step of a run ends sixty years before it begins, by a clock that stands still. -/
theorem not_timely_backdated :
    ∃ (before rest : Transcript) (run : Run) (report : RunReport) (store : MemoryStore),
      RunBy { registry := .standard } backdating (fun _ => ⟨0, 0⟩) before rest run report store ∧
      ∃ step ∈ (store.records "run_steps").filterMap RunStep.ofRecord?,
        step.runId = report.run.id ∧ ¬ step.Timely := by
  obtain ⟨before, rest, run, report, store, hrun, hview⟩ :=
    exists_runBy { registry := .standard } backdating (fun _ => ⟨0, 0⟩)
      (fun report store => ((store.records "run_steps").filterMap RunStep.ofRecord?).any
        fun step => decide (step.runId = report.run.id ∧ ¬ step.Timely)) true (by decide +kernel)
  obtain ⟨step, hstep, hlate⟩ := List.any_eq_true.mp hview
  exact ⟨before, rest, run, report, store, hrun, step, hstep, of_decide_eq_true hlate⟩

end Engine

end FlowEngine
