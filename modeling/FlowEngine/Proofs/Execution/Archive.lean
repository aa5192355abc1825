import FlowEngine.Proofs.Execution.Recording
import FlowEngine.Proofs.Execution.Starting
import FlowEngine.Proofs.Ledger.Growth
/-!
# `FlowEngine.Proofs.Execution.Archive` — what a run leaves in the ledger

The store is in memory, and nobody but the executor writes to the collections of its ledger.  Then
a run leaves its own record and one for each of its steps, behind all that was there before
(`Chronicle.archived`): nothing is turned away, and the last patch of each record makes of it what
is reported.

The induction is over the visits.  What it carries from one to the next is that the ledger is open
and holds, besides what it held at the beginning, the steps of the visits so far.
-/

namespace FlowEngine

theorem RunStep.patched_close (step : RunStep) (houtput : step.output = none)
    (herror : step.error = none) (result : Except NodeError NodeOutput) (moment : Timestamp) :
    step.patched (step.close result moment) = step.close result moment := by
  unfold patched close
  cases result with
  | ok out => simp [complete, houtput, herror]
  | error e => simp [complete, houtput]

theorem Run.patched_running (run : Run) : run.patched run.running = run.running := by
  simp [patched, running]

theorem Run.patched_ended (run : Run) (moment : Timestamp) (error : Option String) :
    run.patched (run.ended moment error) = run.ended moment error := by
  cases error <;> simp [patched, ended]

/-! ## At one node -/

namespace Visit

variable {executor : Executor} {run : Run} {visit : Visit} {store store' : MemoryStore}
  {runs : List (Run × Json)} {steps : List RunStep}

/-- The calls on the store at a node: the creation, those of the handler, and the update. -/
theorem keeps_log (h : (Entry.transcripts (visit.log executor run)).Keeps store store') :
    visit.created =
        (store.create executor.settings.ledger.steps (visit.begunStep run).toRecord).1 ∧
      ∃ between, (Entry.transcripts (visit.workLog executor run)).Keeps
          (store.create executor.settings.ledger.steps (visit.begunStep run).toRecord).2 between ∧
        (Entry.transcripts (visit.saveLog executor run)).Keeps between store' := by
  simp only [log, Entry.transcripts_append, Entry.transcripts_asked_cons, Entry.transcripts_nil,
    Transcript.keeps_append, Transcript.keeps_now, Transcript.keeps_elapsed,
    Transcript.keeps_publish, Transcript.keeps_create, Transcript.keeps_nil] at h
  -- Neither the clocks nor the listeners have a hand in the store.
  obtain ⟨_, ⟨_, ⟨between, ⟨_, ⟨hcreated, rfl⟩, hwork⟩, rfl⟩, hsave⟩, rfl⟩ := h
  exact ⟨hcreated, _, hwork, hsave⟩

theorem step_of_recordId (run : Run) {id : String} (h : visit.recordId executor = .ok id) :
    visit.step executor run =
      { visit.begunStep run with id }.close visit.result visit.ended := by
  rw [step, openStep, h]
  rfl

/-- Nothing that the handler of the node does is a write to the collections of the ledger. -/
def SparesLedger (executor : Executor) (visit : Visit) : Prop :=
  ∀ exchange ∈ visit.work, exchange.action.written? ≠ some executor.settings.ledger.runs ∧
    exchange.action.written? ≠ some executor.settings.ledger.steps

theorem spares_of_resolved (hwork : visit.IsWork executor run) {collection : String}
    (h : ∀ handler, executor.registry.resolve? visit.node.kind = some handler →
      (handler.execute (visit.context run)).Spares collection) :
    ∀ exchange ∈ visit.work, exchange.action.written? ≠ some collection := by
  unfold IsWork at hwork
  cases hr : executor.registry.resolve? visit.node.kind with
  | none =>
      rw [hr] at hwork
      rw [hwork.1]
      exact List.forall_mem_nil _
  | some handler =>
      rw [hr] at hwork
      exact (h handler hr).forall_mem hwork

theorem sparesLedger_of_resolved (hwork : visit.IsWork executor run)
    (h : ∀ handler, executor.registry.resolve? visit.node.kind = some handler →
      (handler.execute (visit.context run)).Spares executor.settings.ledger.runs ∧
        (handler.execute (visit.context run)).Spares executor.settings.ledger.steps) :
    visit.SparesLedger executor := fun exchange hmem =>
  ⟨spares_of_resolved hwork (fun handler hr => (h handler hr).1) exchange hmem,
    spares_of_resolved hwork (fun handler hr => (h handler hr).2) exchange hmem⟩

theorem archived (hopen : executor.settings.ledger.Open store runs steps)
    (hnames : executor.settings.ledger.runs ≠ executor.settings.ledger.steps)
    (howner : ∃ x ∈ runs, x.1.id = run.id) (hwork : visit.IsWork executor run)
    (hspares : visit.SparesLedger executor)
    (hkeeps : (Entry.transcripts (visit.log executor run)).Keeps store store') :
    executor.settings.ledger.Open store' runs (steps ++ [visit.step executor run]) := by
  obtain ⟨hcreated, between, hworked, hsaved⟩ := keeps_log hkeeps
  obtain ⟨hreply, hbegun⟩ := hopen.create_step hnames (visit.begunStep run) howner
  have hrecordId : visit.recordId executor = .ok store.issue.1 := by
    rw [recordId, hcreated, hreply, Except.bind, Json.recordId, RunStep.get?_stored]
    rfl
  -- The handler leaves the ledger alone, so the step is still its last one when it is patched.
  rw [Program.transcripts_workLog hwork] at hworked
  have hworkedOn := hbegun.frame hworked (fun exchange hmem => (hspares exchange hmem).1)
    fun exchange hmem => (hspares exchange hmem).2
  have hstep := step_of_recordId run hrecordId
  have hid : (visit.step executor run).id = store.issue.1 := by
    rw [hstep]
    cases visit.result <;> rfl
  have hbefore : ∀ other ∈ steps, other.id ≠ store.issue.1 := by
    intro other hother heq
    exact (hopen.steps other hother).1 (heq ▸ store.willIssue_issue)
  have hended := hworkedOn.update_step hnames hbefore (visit.step executor run) hid
  simp only [saveLog_eq, hrecordId, Entry.transcripts_asked_cons, Entry.transcripts_nil,
    Transcript.keeps_update, Transcript.keeps_nil] at hsaved
  obtain ⟨-, rfl⟩ := hsaved
  rw [hid, hstep, RunStep.patched_close _ rfl rfl, ← hstep] at hended
  exact hended

/-- The steps of a list of visits come into the ledger one behind the other. -/
theorem archived_logs {visits : List Visit}
    (hopen : executor.settings.ledger.Open store runs steps)
    (hnames : executor.settings.ledger.runs ≠ executor.settings.ledger.steps)
    (howner : ∃ x ∈ runs, x.1.id = run.id)
    (hwork : ∀ visit ∈ visits, visit.IsWork executor run)
    (hspares : ∀ visit ∈ visits, visit.SparesLedger executor)
    (hkeeps : (Entry.transcripts (logs executor run visits)).Keeps store store') :
    executor.settings.ledger.Open store' runs (steps ++ visits.map (step executor run)) := by
  induction visits generalizing store steps with
  | nil =>
      obtain rfl : store' = store := hkeeps
      rw [List.map_nil, List.append_nil]
      exact hopen
  | cons visit later ih =>
      rw [transcripts_logs_cons, Transcript.keeps_append] at hkeeps
      obtain ⟨between, hfirst, hlater⟩ := hkeeps
      obtain ⟨hvisit, hwork⟩ := List.forall_mem_cons.mp hwork
      obtain ⟨hspare, hspares⟩ := List.forall_mem_cons.mp hspares
      have hstep := archived hopen hnames howner hvisit hspare hfirst
      have hsteps := ih hstep hwork hspares hlater
      rw [List.append_assoc] at hsteps
      exact hsteps

end Visit

/-! ## In the course of a run -/

namespace Chronicle

variable {executor : Executor} {run : Run} {flow : Flow} {input : Json} {chronicle : Chronicle}
  {store store' : MemoryStore} {runs : List (Run × Json)} {steps : List RunStep}

/-- The calls on the store in the course of a run: an update, those at the nodes, and an update. -/
theorem keeps_log (h : (Entry.transcripts (chronicle.log executor run flow)).Keeps store store') :
    ∃ between, (Entry.transcripts (Visit.logs executor run.running chronicle.visits)).Keeps
        (store.update executor.settings.ledger.runs run.id run.running.toPatch).2 between ∧
      store' = (between.update executor.settings.ledger.runs run.id
        (chronicle.final run).toPatch).2 := by
  simp only [log, Entry.transcripts_append, Entry.transcripts_asked_cons, Entry.transcripts_nil,
    Transcript.keeps_append, Transcript.keeps_now, Transcript.keeps_elapsed,
    Transcript.keeps_publish, Transcript.keeps_update, Transcript.keeps_nil] at h
  obtain ⟨between, ⟨_, ⟨-, rfl⟩, hvisits⟩, -, rfl⟩ := h
  exact ⟨between, hvisits, rfl⟩

/-- A run that the ledger holds behind others leaves itself as it ends, and its steps. -/
theorem archived (hopen : executor.settings.ledger.Open store (runs ++ [(run, input)]) steps)
    (hnames : executor.settings.ledger.runs ≠ executor.settings.ledger.steps)
    (hnew : ∀ x ∈ runs, x.1.id ≠ run.id)
    (htour : executor.Tour run.running flow input chronicle.visits)
    (hspares : ∀ visit ∈ chronicle.visits, visit.SparesLedger executor)
    (hkeeps : (Entry.transcripts (chronicle.log executor run flow)).Keeps store store') :
    executor.settings.ledger.Open store'
      (runs ++ [((chronicle.report executor run flow input).run, input)])
      (steps ++ (chronicle.report executor run flow input).steps) := by
  obtain ⟨between, hvisits, rfl⟩ := keeps_log hkeeps
  have hstarted := hopen.update_run hnames hnew run.running rfl
  rw [Run.patched_running] at hstarted
  have howner : ∃ x ∈ runs ++ [(run.running, input)], x.1.id = run.running.id :=
    ⟨(run.running, input), List.mem_append_right _ List.mem_cons_self, rfl⟩
  have hwalked := Visit.archived_logs hstarted hnames howner htour.inTurn.isWork hspares hvisits
  have hended := hwalked.update_run hnames hnew (chronicle.final run) rfl
  rw [final, Run.patched_ended] at hended
  exact hended

end Chronicle

/-! ## From the beginning -/

namespace Engine

variable {engine : Engine} {flow : Flow} {triggerType : TriggerType} {input : Json}
  {testMode : Bool} {store store' : MemoryStore} {runs : List (Run × Json)}
  {steps : List RunStep} {t : Transcript} {outcome : Except FlowError RunReport}

/-- In an open ledger a run that is not refused gets the next identifier, and is executed behind the
others. -/
theorem runFlow_told (hopen : engine.settings.ledger.Open store runs steps)
    (hnames : engine.settings.ledger.runs ≠ engine.settings.ledger.steps)
    (h : (engine.runFlow flow triggerType input testMode).Leads t outcome)
    (hkeeps : t.Keeps store store') :
    flow.Refuses testMode ∧ outcome = .error (.flowArchived flow.id) ∨
      ∃ (run : Run) (created : Exchange) (rest : Transcript) (chronicle : Chronicle)
          (between : MemoryStore),
        run = { Run.queued flow.id triggerType testMode run.startedAt with id := store.issue.1 } ∧
        t = ⟨.now, run.startedAt⟩ :: created :: rest ∧
        engine.settings.ledger.Open between (runs ++ [(run, input)]) steps ∧
        Chronicle.Tells engine run flow input chronicle rest outcome ∧
        rest.Keeps between store' := by
  have hbegun := Program.leads_runFlow h
  by_cases hrefuses : flow.Refuses testMode
  · exact Or.inl ⟨hrefuses, (hbegun.refusal hrefuses).2⟩
  · obtain ⟨run, created, rest, hrun, rfl, hnamed⟩ := hbegun.created hrefuses
    rw [Transcript.keeps_now, Transcript.keeps_create] at hkeeps
    obtain ⟨hcreated, hkeeps⟩ := hkeeps
    obtain ⟨hreply, hqueued⟩ := hopen.create_run hnames run input
    have hexecute : (engine.execute { run with id := store.issue.1 } flow input).Leads rest
        outcome := by
      refine hnamed _ ?_
      rw [hcreated, hreply, Except.bind, Json.recordId, Run.get?_stored]
      rfl
    have hstatus : ({ run with id := store.issue.1 } : Run).status = .queued :=
      congrArg Run.status hrun
    obtain ⟨chronicle, htells⟩ := Program.leads_execute hstatus hexecute
    refine Or.inr ⟨{ run with id := store.issue.1 }, _, rest, chronicle, _, ?_, rfl, hqueued,
      htells, hkeeps⟩
    exact congrArg (fun run : Run => { run with id := store.issue.1 }) hrun

end Engine

end FlowEngine
