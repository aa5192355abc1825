import FlowEngine.Proofs.Execution.Archive
import FlowEngine.Proofs.Execution.Data
import FlowEngine.Proofs.Execution.Outage
/-!
# `FlowEngine.Proofs.Execution.Readback` — a run is read as it was reported

What a run has left in the ledger is read out of it again: the run as it ended, the event that
started it, and its first steps in the order of their execution (`runFlow_readBack`).  What else
the ledger holds makes no difference, as the identifier of the run is in no other record.

Three things have to be known of a report for this (`RunReport.Readable`).  Its data must be in
order, as is whatever has been read or built by `insert`; they are if the input is, and if the
handlers keep to it.  Its moments must be legible and must not go backwards, which is up to the
clock.  And its errors must be worded, which they always are.
-/

namespace FlowEngine

/-! ## Data in order -/

/-- The handler of the node leaves the collections of the ledger alone, and given data in order it
puts out data in order. -/
structure Executor.Trusts (executor : Executor) (node : Node) : Prop where
  runs : ∀ handler, executor.registry.resolve? node.kind = some handler → ∀ run data,
    (handler.execute (node.seen run data)).Spares executor.settings.ledger.runs
  steps : ∀ handler, executor.registry.resolve? node.kind = some handler → ∀ run data,
    (handler.execute (node.seen run data)).Spares executor.settings.ledger.steps
  tidy : ∀ handler, executor.registry.resolve? node.kind = some handler → ∀ run data,
    data.Tidy → ∀ t out, (handler.execute (node.seen run data)).Leads t (.ok out) →
      out.output.Tidy

namespace Visit

variable {executor : Executor} {run : Run} {visit : Visit}

theorem sparesLedger_of_trusts (h : executor.Trusts visit.node)
    (hwork : visit.IsWork executor run) : visit.SparesLedger executor :=
  sparesLedger_of_resolved hwork fun handler hr =>
    ⟨h.runs handler hr run visit.data, h.steps handler hr run visit.data⟩

/-- The data of the visit, and what it puts out, are in order. -/
def IsTidy (visit : Visit) : Prop :=
  visit.data.Tidy ∧ ∀ out, visit.result = .ok out → out.output.Tidy

theorem isTidy_of_trusts (h : executor.Trusts visit.node) (hwork : visit.IsWork executor run)
    (hdata : visit.data.Tidy) : visit.IsTidy := by
  refine ⟨hdata, ?_⟩
  intro out hout
  unfold IsWork at hwork
  cases hr : executor.registry.resolve? visit.node.kind with
  | none =>
      rw [hr] at hwork
      have hplaceholder := hwork.2
      rw [hout] at hplaceholder
      unfold Executor.unregistered at hplaceholder
      split at hplaceholder
      · obtain rfl := Except.ok.inj hplaceholder
        exact ⟨List.pairwise_singleton _ _, trivial, trivial⟩
      · cases hplaceholder
  | some handler =>
      rw [hr, hout] at hwork
      exact h.tidy handler hr run visit.data hdata visit.work out hwork

theorem IsTidy.leave (h : visit.IsTidy) {context : ExecutionContext}
    (hcontext : context.data.Tidy) : (visit.leave context).data.Tidy := by
  rw [data_leave]
  unfold hand
  cases hr : visit.result with
  | error e => exact hcontext
  | ok out =>
      simp only
      split
      · exact hcontext
      · exact h.2 out hr

end Visit

namespace Executor

variable {executor : Executor} {run : Run} {flow : Flow} {input : Json}

theorem InTurn.tidy {context : ExecutionContext} {visits : List Visit}
    (h : executor.InTurn run context visits)
    (htrusts : ∀ visit ∈ visits, executor.Trusts visit.node) (hcontext : context.data.Tidy) :
    ∀ visit ∈ visits, visit.IsTidy := by
  induction visits generalizing context with
  | nil => exact List.forall_mem_nil _
  | cons visit later ih =>
      obtain ⟨hvisit, htrusts⟩ := List.forall_mem_cons.mp htrusts
      obtain ⟨⟨hdata, hwork⟩, hlater⟩ := h
      have htidy := Visit.isTidy_of_trusts hvisit hwork (hdata ▸ hcontext)
      exact List.forall_mem_cons.mpr ⟨htidy, ih hlater htrusts (htidy.leave hcontext)⟩

theorem Tour.mem_nodes {visits : List Visit} (h : executor.Tour run flow input visits) :
    ∀ visit ∈ visits, visit.node ∈ flow.canvas.nodes := by
  obtain ⟨hhead, htail⟩ := h.nodes
  cases visits with
  | nil => exact List.forall_mem_nil _
  | cons visit later =>
      refine List.forall_mem_cons.mpr ⟨?_, ?_⟩
      · have htrigger : flow.canvas.triggers.head? = some visit.node := hhead.symm
        exact (List.mem_filter.mp (List.mem_of_mem_head? htrigger)).1
      · intro other hother
        exact List.mem_of_find?_eq_some (htail other hother)

end Executor

/-! ## Moments in order -/

/-- What is read off the clock can be read back, and it never goes backwards. -/
structure Transcript.Steady (t : Transcript) : Prop where
  legible : ∀ moment ∈ t.readings, moment.Legible
  rising : t.readings.Pairwise fun a b => a.notAfter b = true

theorem Transcript.Steady.of_cons {exchange : Exchange} {t : Transcript}
    (h : Transcript.Steady (exchange :: t)) : t.Steady := by
  have hlater : t.readings.Sublist (Transcript.readings (exchange :: t)) :=
    (List.sublist_cons_self exchange t).filterMap _
  exact ⟨fun moment hmem => h.legible moment (hlater.mem hmem), h.rising.sublist hlater⟩

theorem Entry.sublist_readings (log : List Entry) :
    (Entry.readings log).Sublist (Entry.transcripts log).readings := by
  induction log with
  | nil => exact List.Sublist.refl _
  | cons entry rest ih =>
      have hrest : (Entry.transcripts (entry :: rest)).readings =
          entry.transcript.readings ++ (Entry.transcripts rest).readings :=
        List.filterMap_append
      rw [hrest]
      cases entry with
      | worked handler context t result => exact ih.trans (List.sublist_append_right _ _)
      | asked exchange =>
          have hhead : Entry.readings (.asked exchange :: rest) =
              Transcript.readings [exchange] ++ Entry.readings rest :=
            List.filterMap_append (l := [Entry.asked exchange])
          rw [hhead]
          exact (List.Sublist.refl _).append ih

namespace Visit

variable {executor : Executor} {run : Run} {visit : Visit}

theorem startedAt_step : (visit.step executor run).startedAt = visit.begun := by
  unfold step openStep
  cases visit.recordId executor <;> cases visit.result <;> rfl

theorem sublist_begun (visits : List Visit) :
    (visits.map Visit.begun).Sublist (Entry.readings (logs executor run visits)) := by
  induction visits with
  | nil => exact List.Sublist.refl _
  | cons visit later ih =>
      rw [readings_logs_cons]
      exact (((ih.cons _).cons _).cons _).cons_cons _

theorem ended_mem_readings {visits : List Visit} (h : visit ∈ visits) :
    visit.ended ∈ Entry.readings (logs executor run visits) := by
  induction visits with
  | nil => exact absurd h List.not_mem_nil
  | cons first later ih =>
      rw [readings_logs_cons]
      rcases List.mem_cons.mp h with rfl | h
      · simp
      · simp [ih h]

/-- The step of a visit can be read back, if its moments are among such as can. -/
theorem legible_step {visits : List Visit} (h : visit ∈ visits)
    (hlegible : ∀ moment ∈ Entry.readings (logs executor run visits), moment.Legible) :
    (visit.step executor run).Legible := by
  have hbegun : visit.begun.Legible :=
    hlegible _ ((sublist_begun visits).mem (List.mem_map_of_mem h))
  refine ⟨startedAt_step ▸ hbegun, ?_⟩
  rw [finishedAt_step]
  intro moment hmoment
  obtain rfl := Option.some.inj hmoment
  exact (hlegible _ (ended_mem_readings h)).latest hbegun

theorem snapshot_exact {value : Json} (h : value.Tidy) :
    ∀ x ∈ snapshot value, x.Tidy ∧ x ≠ .null := by
  intro x hx
  unfold snapshot at hx
  split at hx
  · cases hx
  · next hnull =>
      obtain rfl := Option.some.inj hx
      exact ⟨h, fun heq => hnull (Json.isNull_iff.mpr heq)⟩

theorem error_step_of_ok {out : NodeOutput} (h : visit.result = .ok out) :
    (visit.step executor run).error = none := by
  unfold step openStep
  rw [h]
  cases visit.recordId executor <;> rfl

theorem output_step_of_error {e : NodeError} (h : visit.result = .error e) :
    (visit.step executor run).output = none := by
  unfold step openStep
  rw [h]
  cases visit.recordId executor <;> rfl

theorem IsTidy.exact_step (h : visit.IsTidy) : (visit.step executor run).Exact := by
  have hinput : ∀ x ∈ (visit.step executor run).input, x.Tidy ∧ x ≠ .null := by
    rw [input_step]
    exact snapshot_exact h.1
  cases hr : visit.result with
  | ok out =>
      refine ⟨hinput, ?_, ?_⟩
      · rw [(step_of_ok hr).2]
        exact snapshot_exact (h.2 out hr)
      · rw [error_step_of_ok hr]
        intro heq
        cases heq
  | error e =>
      refine ⟨hinput, ?_, ?_⟩
      · rw [output_step_of_error hr]
        intro x hx
        cases hx
      · rw [(step_of_error hr).2]
        intro heq
        exact e.message_ne_empty (Option.some.inj heq)

end Visit

/-! ## Reading a run -/

/-- What is read out of the store of a run that has been reported: the run, the event that started
it, and its first steps. -/
structure Engine.ReadsBack (engine : Engine) (store : MemoryStore) (input : Json)
    (report : RunReport) : Prop where
  run : ((engine.getRun report.run.id).runWith MemoryStore.answer store).1 = .ok report.run
  input : ∃ record, store.getOne engine.settings.ledger.runs report.run.id {} = .ok record ∧
    record.get? "input_event" = some input
  steps : ((engine.listRunSteps report.run.id).runWith MemoryStore.answer store).1 =
    .ok (report.steps.take 200)

section Reading

variable {engine : Engine} {store : MemoryStore} {runs : List (Run × Json)} {steps : List RunStep}
  {input : Json} {report : RunReport}

/-- The steps of a run are listed as they are, if no other step is of the run and they stand in the
order in which they began. -/
theorem Ledger.Holds.listSteps_exact {ledger : Ledger} {own : List RunStep} {runId : String}
    (h : ledger.Holds store runs (steps ++ own)) (hquote : '"' ∉ runId.toList)
    (hothers : ∀ step ∈ steps, step.runId ≠ runId)
    (hown : ∀ step ∈ own, step.runId = runId ∧ step.Legible ∧ step.Exact)
    (horder : own.Pairwise fun a b => a.oldestFirst b = true) :
    ((ledger.listSteps runId).runWith MemoryStore.answer store).1 = .ok (own.take 200) := by
  have hread : ∀ step ∈ steps ++ own, step.runId = runId →
      step.startedAt.Legible ∧ RunStep.ofRecord? step.stored = some (id step) := by
    intro step hstep hrun
    rcases List.mem_append.mp hstep with hold | hnew
    · exact absurd hrun (hothers step hold)
    · obtain ⟨-, hlegible, hexact⟩ := hown step hnew
      obtain ⟨read, hread, -, -, hself⟩ := RunStep.ofRecord?_stored hlegible
      rw [hself hexact] at hread
      exact ⟨hlegible.startedAt, hread⟩
  have hnone : steps.filter (fun step => step.runId == runId) = [] := by
    refine List.filter_eq_nil_iff.mpr ?_
    intro step hstep
    simpa using hothers step hstep
  have hall : own.filter (fun step => step.runId == runId) = own := by
    refine List.filter_eq_self.mpr ?_
    intro step hstep
    simpa using (hown step hstep).1
  -- They stand in order already, so the stable sort leaves them as they are.
  rw [h.listSteps hquote hread, List.filter_append, hnone, hall, List.nil_append, List.map_id,
    List.mergeSort_of_pairwise horder]

/-- All that has to be known of a report for the run to be read back. -/
structure RunReport.Readable (report : RunReport) : Prop where
  run : report.run.Legible
  worded : report.run.error ≠ some ""
  steps : ∀ step ∈ report.steps, step.runId = report.run.id ∧ step.Legible ∧ step.Exact
  order : report.steps.Pairwise fun a b => a.oldestFirst b = true

theorem Ledger.Holds.readsBack
    (h : engine.settings.ledger.Holds store (runs ++ [(report.run, input)])
      (steps ++ report.steps))
    (hquote : '"' ∉ report.run.id.toList) (hnew : ∀ x ∈ runs, x.1.id ≠ report.run.id)
    (hothers : ∀ step ∈ steps, step.runId ≠ report.run.id) (hreport : report.Readable) :
    engine.ReadsBack store input report where
  run := h.getRun_at hnew hreport.run hreport.worded
  input := by
    refine ⟨_, h.runs.getOne_at hnew rfl, ?_⟩
    exact report.run.get?_stored input "input_event"
  steps := by
    have hlist := h.listSteps_exact hquote hothers hreport.steps hreport.order
    rw [Engine.listRunSteps, Program.runWith_bind, hlist]
    rfl

end Reading

/-- A run with a steady clock and data in order is reported so that it can be read back. -/
theorem Chronicle.readable_report {executor : Executor} {run : Run} {flow : Flow} {input : Json}
    {chronicle : Chronicle} {t : Transcript} {outcome : Except FlowError RunReport}
    (h : chronicle.Tells executor run flow input t outcome) (hrun : run.startedAt.Legible)
    (herror : run.error = none) (hsteady : t.Steady)
    (htidy : ∀ visit ∈ chronicle.visits, visit.IsTidy) :
    (chronicle.report executor run flow input).Readable := by
  have hreadings : (Entry.readings (chronicle.log executor run flow)).Sublist t.readings := by
    rw [h.transcript]
    exact Entry.sublist_readings _
  rw [Chronicle.readings_log] at hreadings
  have hended : chronicle.ended ∈ t.readings := hreadings.mem (by simp)
  have hvisits : (Entry.readings (Visit.logs executor run.running chronicle.visits)).Sublist
      t.readings := ((List.sublist_append_left _ _).cons _).trans hreadings
  refine ⟨⟨hrun, ?_⟩, ?_, ?_, ?_⟩
  · intro moment hmoment
    obtain rfl := Option.some.inj hmoment
    exact (hsteady.legible _ hended).latest hrun
  · show (Visit.runError? chronicle.visits).or run.error ≠ some ""
    rw [herror, Option.or_none]
    exact fun heq => Visit.runError?_ne_empty heq rfl
  · intro step hstep
    obtain ⟨visit, hvisit, rfl⟩ := List.mem_map.mp hstep
    refine ⟨Visit.runId_step, ?_, (htidy visit hvisit).exact_step⟩
    exact Visit.legible_step hvisit fun moment hmem => hsteady.legible _ (hvisits.mem hmem)
  · have hbegun := (hsteady.rising.sublist hvisits).sublist
      (Visit.sublist_begun chronicle.visits)
    refine List.pairwise_map.mpr ((List.pairwise_map.mp hbegun).imp ?_)
    intro visit later hle
    rw [RunStep.oldestFirst, Visit.startedAt_step, Visit.startedAt_step]
    exact hle

namespace Engine

/-- Unless the flow is archived, a run of it is reported and can be read back as it was reported,
whatever else has been kept in the ledger before. -/
theorem runFlow_readBack (engine : Engine) (flow : Flow) (triggerType : TriggerType) (input : Json)
    (testMode : Bool) {store store' : MemoryStore} {runs : List (Run × Json)}
    {steps : List RunStep} {t : Transcript} {outcome : Except FlowError RunReport}
    (hnames : engine.settings.ledger.runs ≠ engine.settings.ledger.steps)
    (hopen : engine.settings.ledger.Open store runs steps)
    (htrusts : ∀ node ∈ flow.canvas.nodes, engine.Trusts node) (hinput : input.Tidy)
    (h : (engine.runFlow flow triggerType input testMode).Leads t outcome)
    (hkeeps : t.Keeps store store') (hsteady : t.Steady) :
    flow.Refuses testMode ∧ outcome = .error (.flowArchived flow.id) ∨
      ∃ report, outcome = .ok report ∧ report.run.flowId = flow.id ∧
        engine.settings.ledger.Open store' (runs ++ [(report.run, input)])
          (steps ++ report.steps) ∧
        engine.ReadsBack store' input report := by
  rcases runFlow_told hopen hnames h hkeeps with
    hrefuses | ⟨run, created, rest, chronicle, between, hrun, rfl, hqueued, htells, hkeeps⟩
  · exact Or.inl hrefuses
  · refine Or.inr ?_
    have hid : run.id = store.issue.1 := congrArg Run.id hrun
    have hissue := store.willIssue_issue
    rw [← hid] at hissue
    -- The identifier is new, so nothing from before can be taken for the run or for a step of it.
    have hnew : ∀ x ∈ runs, x.1.id ≠ run.id :=
      fun x hx heq => hopen.runs x hx (heq ▸ hissue)
    have hothers : ∀ step ∈ steps, step.runId ≠ run.id :=
      fun step hstep heq => (hopen.steps step hstep).2 (heq ▸ hissue)
    have hnodes : ∀ visit ∈ chronicle.visits, engine.Trusts visit.node :=
      fun visit hvisit => htrusts visit.node (htells.tour.mem_nodes visit hvisit)
    have hinTurn := htells.tour.inTurn
    have hspares : ∀ visit ∈ chronicle.visits, visit.SparesLedger engine :=
      fun visit hvisit => Visit.sparesLedger_of_trusts (hnodes visit hvisit)
        (hinTurn.isWork visit hvisit)
    rw [htells.transcript] at hkeeps
    have harchived := Chronicle.archived hqueued hnames hnew htells.tour hspares hkeeps
    have hreport := Chronicle.readable_report htells
      (hsteady.legible _ List.mem_cons_self) (congrArg Run.error hrun) hsteady.of_cons.of_cons
      (hinTurn.tidy hnodes hinput)
    refine ⟨_, htells.outcome, congrArg Run.flowId hrun, harchived, ?_⟩
    exact harchived.holds.readsBack (hopen.quoteless _ hissue) hnew hothers hreport

end Engine

/-! ## Two runs in one store -/

namespace Clock

theorem eq_of_follows_const {moment : Timestamp} {n : Nat} {moments : List Timestamp}
    (h : Follows (fun _ => moment) n moments) : ∀ m ∈ moments, m = moment := by
  induction moments generalizing n with
  | nil => exact List.forall_mem_nil _
  | cons m later ih => exact List.forall_mem_cons.mpr ⟨h.1, ih h.2⟩

theorem steady_of_const {moment : Timestamp} (hmoment : moment.Legible) {t : Transcript}
    (h : Follows (fun _ => moment) 0 t.readings) : t.Steady := by
  have hall := eq_of_follows_const h
  refine ⟨fun m hm => hall m hm ▸ hmoment, List.pairwise_of_forall_mem_list ?_⟩
  intro m hm n hn
  rw [hall m hm, hall n hn, Timestamp.notAfter_iff]
  exact Or.inr ⟨rfl, Nat.le_refl _⟩

end Clock

namespace Executor

theorem fading_trusts (node : Node) : fading.Trusts node := by
  have hconst : ∀ handler ∈ fading.registry.handlers, ∃ result : Except NodeError NodeOutput,
      (handler.execute = fun _ => return result) ∧
        ∀ out, result = .ok out → out.output.Tidy := by
    have htidy : ∀ {output : Json}, output.Tidy → ∀ out : NodeOutput,
        (.ok { output } : Except NodeError NodeOutput) = .ok out → out.output.Tidy := by
      intro output houtput out heq
      obtain rfl := Except.ok.inj heq
      exact houtput
    simp only [fading, List.forall_mem_cons]
    refine ⟨⟨_, rfl, htidy trivial⟩, ⟨_, rfl, htidy trivial⟩, ⟨_, rfl, ?_⟩, List.forall_mem_nil _⟩
    intro out heq
    cases heq
  constructor
  · intro handler hresolve run data
    obtain ⟨result, hresult, -⟩ := hconst handler (Registry.mem_of_resolve? hresolve)
    rw [hresult]
    exact .pure _
  · intro handler hresolve run data
    obtain ⟨result, hresult, -⟩ := hconst handler (Registry.mem_of_resolve? hresolve)
    rw [hresult]
    exact .pure _
  · intro handler hresolve run data _ t out hleads
    obtain ⟨result, hresult, htidy⟩ := hconst handler (Registry.mem_of_resolve? hresolve)
    rw [hresult] at hleads
    exact htidy out (Program.leads_pure.mp hleads).2.symm

end Executor

namespace Engine

/-- The line of three nodes, which fails at its third, run twice in a store that is new, by a
clock that stands still. -/
theorem readBack_fadingLine :
    ∃ (t t' : Transcript) (between store : MemoryStore) (first second : RunReport),
      (runFlow Executor.fading Executor.fadingLine .manual .null false).Leads t (.ok first) ∧
      (runFlow Executor.fading Executor.fadingLine .manual .null false).Leads t' (.ok second) ∧
      t.Keeps {} between ∧ t'.Keeps between store ∧
      first.run.id = "<id:1>" ∧ second.run.id = "<id:5>" ∧
      second.steps.map RunStep.id = ["<id:6>", "<id:7>", "<id:8>"] ∧
      ReadsBack Executor.fading store .null second := by
  let program := runFlow Executor.fading Executor.fadingLine .manual .null false
  let clock : Clock := fun _ => ⟨0, 0⟩
  have hmoment : (⟨0, 0⟩ : Timestamp).Legible := by
    unfold Timestamp.Legible
    decide +kernel
  have hnames : Executor.fading.settings.ledger.runs ≠ Executor.fading.settings.ledger.steps := by
    decide
  have haccepts : ¬ Executor.fadingLine.Refuses false := fun h => absurd h.1 (by decide)
  let between : MemoryStore := (program.runWith (withClock clock MemoryStore.answer) (0, {})).2.2
  obtain ⟨t, h, hread, hkeeps⟩ := Program.leads_answer clock program 0 {}
  obtain ⟨t', h', hread', hkeeps'⟩ := Program.leads_answer clock program 0 between
  rcases runFlow_readBack Executor.fading Executor.fadingLine .manual .null false hnames
      (Ledger.open_new _) (fun node _ => Executor.fading_trusts node) trivial h hkeeps
      (Clock.steady_of_const hmoment hread) with ⟨hrefuses, -⟩ | ⟨first, hfirst, -, hopen, -⟩
  · exact absurd hrefuses haccepts
  rcases runFlow_readBack Executor.fading Executor.fadingLine .manual .null false hnames hopen
      (fun node _ => Executor.fading_trusts node) trivial h' hkeeps'
      (Clock.steady_of_const hmoment hread') with ⟨hrefuses, -⟩ | ⟨second, hsecond, -, -, hreads⟩
  · exact absurd hrefuses haccepts
  have hid : ((program.runWith (withClock clock MemoryStore.answer) (0, {})).1.toOption.map
      fun report => report.run.id) = some "<id:1>" := by decide +kernel
  have hids : ((program.runWith (withClock clock MemoryStore.answer)
      (0, between)).1.toOption.map fun report =>
        (report.run.id, report.steps.map RunStep.id)) =
      some ("<id:5>", ["<id:6>", "<id:7>", "<id:8>"]) := by decide +kernel
  rw [hfirst] at h hid
  rw [hsecond] at h' hids
  obtain ⟨hrun, hsteps⟩ := Prod.mk.inj (Option.some.inj hids)
  exact ⟨t, t', between, _, first, second, h, h', hkeeps, hkeeps', Option.some.inj hid, hrun,
    hsteps, hreads⟩

end Engine

end FlowEngine
