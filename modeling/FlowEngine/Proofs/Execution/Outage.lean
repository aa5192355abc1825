import FlowEngine.Proofs.Execution.Essence
/-!
# `FlowEngine.Proofs.Execution.Outage` — the store has no say in a run

Two executions of one run, each in a world of its own.  Nothing ties the two worlds but the clock:
what the executor reads off it for the n-th time is the same in both (`Clock.Follows`).  The store
may answer one of them and fail the other, at any of its calls.  If the handlers go by their
contexts alone, the two reports are the same, but for the identifiers that the store has given to
the steps.

What the store has no part in is the outline of a visit: its node, its data, its result, and when it
began and ended.  The outlines of two executions are the same, as their visits have the same essence
and the clock has shown them the same (`Tour.outlines_eq`); the report is a function of the outlines
and of the last reading of the clock, up to the identifiers.

A handler may read the clock, too, and how often it does so may depend on what it is answered.  Its
readings are no part of the executor's log, and are not asked to agree.
-/

namespace FlowEngine

/-! ## Readings of the clock -/

namespace Visit

variable {executor : Executor} {run : Run}

/-- The executor reads the clock four times at a node. -/
theorem readings_log (visit : Visit) : Entry.readings (visit.log executor run) =
    [visit.begun, visit.announced, visit.ended, visit.told] := by
  have hwork : Entry.readings (visit.workLog executor run) = [] := by
    unfold workLog
    split <;> rfl
  have hsave : Entry.readings (visit.saveLog executor run) = [] := by
    unfold saveLog
    split <;> rfl
  unfold Entry.readings at hwork hsave ⊢
  simp only [log, List.filterMap_append, hwork, hsave]
  rfl

theorem readings_logs_cons (visit : Visit) (later : List Visit) :
    Entry.readings (logs executor run (visit :: later)) =
      visit.begun :: visit.announced :: visit.ended :: visit.told ::
        Entry.readings (logs executor run later) := by
  rw [logs, List.flatMap_cons, Entry.readings, List.filterMap_append, ← Entry.readings,
    readings_log]
  rfl

theorem length_readings_logs (visits : List Visit) :
    (Entry.readings (logs executor run visits)).length = 4 * visits.length := by
  induction visits with
  | nil => rfl
  | cons visit later ih =>
      rw [readings_logs_cons]
      simp only [List.length_cons, ih]
      omega

end Visit

theorem Chronicle.readings_log {executor : Executor} {run : Run} {flow : Flow}
    (chronicle : Chronicle) :
    Entry.readings (chronicle.log executor run flow) =
      chronicle.announced :: (Entry.readings (Visit.logs executor run.running chronicle.visits) ++
        [chronicle.ended]) := by
  unfold Entry.readings
  rw [log, List.filterMap_append, List.filterMap_append]
  rfl

/-! ## What of a transcript is the executor's

A handler that does not read the clock leaves no reading in the transcript of a run; then all the
readings there are the executor's. -/

/-- The entry has no reading of a handler's. -/
def Entry.Quiet : Entry → Prop
  | .asked _ => True
  | .worked _ _ t _ => t.readings = []

@[simp] theorem Entry.quiet_asked (exchange : Exchange) : (Entry.asked exchange).Quiet := trivial

theorem Entry.readings_transcripts {log : List Entry} (h : ∀ entry ∈ log, entry.Quiet) :
    (Entry.transcripts log).readings = Entry.readings log := by
  induction log with
  | nil => rfl
  | cons entry rest ih =>
      obtain ⟨hentry, hrest⟩ := List.forall_mem_cons.mp h
      rw [Entry.transcripts, List.flatMap_cons, ← Entry.transcripts, Transcript.readings,
        List.filterMap_append, ← Transcript.readings, ← Transcript.readings, ih hrest]
      cases entry with
      | asked exchange =>
          rw [Entry.readings, Entry.readings, List.filterMap_cons]
          cases hr : exchange.reading? <;>
            simp [Entry.transcript, Transcript.readings, Entry.reading?, hr]
      | worked handler context t result =>
          rw [show (Entry.worked handler context t result).transcript.readings = [] from hentry]
          rfl

/-- The handler does not read the clock. -/
def Handler.Clockless (handler : Handler) : Prop :=
  ∀ context : NodeContext, (handler.execute context).Clockless

theorem Visit.quiet_log {executor : Executor} {run : Run} {visit : Visit}
    (hclock : ∀ handler ∈ executor.registry.handlers, handler.Clockless)
    (hwork : visit.IsWork executor run) : ∀ entry ∈ visit.log executor run, entry.Quiet := by
  have hquiet : ∀ entry ∈ visit.workLog executor run, entry.Quiet := by
    unfold workLog
    unfold IsWork at hwork
    cases hr : executor.registry.resolve? visit.node.kind with
    | none => exact List.forall_mem_nil _
    | some handler =>
        rw [hr] at hwork
        have hhandler := hclock handler (Registry.mem_of_resolve? hr)
        exact List.forall_mem_singleton.mpr ((hhandler _).readings_eq_nil hwork)
  have hsave : ∀ entry ∈ visit.saveLog executor run, entry.Quiet := by
    unfold saveLog
    split
    · exact List.forall_mem_singleton.mpr trivial
    · exact List.forall_mem_nil _
  simp only [log, List.forall_mem_append, List.forall_mem_cons, Entry.quiet_asked, true_and]
  refine ⟨⟨⟨⟨?_, hquiet⟩, ?_⟩, hsave⟩, ?_⟩ <;> exact List.forall_mem_nil _

theorem Chronicle.quiet_log {executor : Executor} {run : Run} {flow : Flow} {input : Json}
    {chronicle : Chronicle} (hclock : ∀ handler ∈ executor.registry.handlers, handler.Clockless)
    (htour : executor.Tour run.running flow input chronicle.visits) :
    ∀ entry ∈ chronicle.log executor run flow, entry.Quiet := by
  have hvisits : ∀ entry ∈ Visit.logs executor run.running chronicle.visits, entry.Quiet := by
    intro entry hentry
    obtain ⟨visit, hvisit, hentry⟩ := List.mem_flatMap.mp hentry
    exact Visit.quiet_log hclock (htour.inTurn.isWork visit hvisit) entry hentry
  simp only [log, List.forall_mem_append, List.forall_mem_cons, Entry.quiet_asked, true_and]
  refine ⟨⟨?_, hvisits⟩, ?_⟩ <;> exact List.forall_mem_nil _

/-! ## Outlines -/

def RunStep.anonymous (step : RunStep) : RunStep := { step with id := "" }

def RunReport.anonymous (report : RunReport) : RunReport :=
  { report with steps := report.steps.map RunStep.anonymous }

namespace Visit

/-- The visit without what the store, the stopwatch and the handler's world have answered. -/
def outline (visit : Visit) : Visit :=
  { visit with
    created := .ok .null, announced := visit.begun, watch := 0, work := [], stopped := 0
    saved := .ok .null, told := visit.ended }

variable {executor : Executor} {run : Run} {visit other : Visit}

theorem outline_congr (hnode : visit.node = other.node) (hdata : visit.data = other.data)
    (hbegun : visit.begun = other.begun) (hresult : visit.result = other.result)
    (hended : visit.ended = other.ended) : visit.outline = other.outline := by
  rw [outline, outline, hnode, hdata, hbegun, hresult, hended]

theorem anonymous_step : (visit.step executor run).anonymous =
    ((visit.begunStep run).close visit.result visit.ended).anonymous := by
  unfold step openStep
  cases visit.recordId executor <;> cases visit.result <;> rfl

theorem anonymous_steps (visits : List Visit) :
    (visits.map (step executor run)).map RunStep.anonymous =
      (visits.map outline).map fun visit =>
        ((visit.begunStep run).close visit.result visit.ended).anonymous := by
  rw [List.map_map, List.map_map]
  exact List.map_congr_left fun _ _ => anonymous_step

theorem essences_of_outlines {visits others : List Visit}
    (h : visits.map outline = others.map outline) :
    visits.map essence = others.map essence := by
  have hessences := congrArg (List.map essence) h
  rwa [List.map_map, List.map_map] at hessences

/-- Visits of one essence at which the clock has shown the same have the same outlines. -/
theorem outlines_of_essences {clock : Clock} {n : Nat} {visits others : List Visit}
    (h : visits.map essence = others.map essence)
    (hread : clock.Follows n (Entry.readings (logs executor run visits)))
    (hread' : clock.Follows n (Entry.readings (logs executor run others))) :
    visits.map outline = others.map outline := by
  induction visits generalizing n others with
  | nil =>
      obtain rfl := List.map_eq_nil_iff.mp h.symm
      rfl
  | cons visit later ih =>
      obtain ⟨other, rest, rfl, hvisit, hlater⟩ := List.map_eq_cons_iff.mp h.symm
      rw [readings_logs_cons] at hread hread'
      obtain ⟨hbegun, -, hended, -, hread⟩ := hread
      obtain ⟨hbegun', -, hended', -, hread'⟩ := hread'
      obtain ⟨hnode, hdata, hresult⟩ := essence_eq_iff.mp hvisit.symm
      rw [List.map_cons, List.map_cons, ih hlater.symm hread hread',
        outline_congr hnode hdata (hbegun.trans hbegun'.symm) hresult
          (hended.trans hended'.symm)]

end Visit

/-! ## Two executions side by side -/

/-- The handler goes by its context alone: whatever it is answered, it comes to the same result. -/
def Handler.Determined (handler : Handler) : Prop :=
  ∀ (context : NodeContext) (t t' : Transcript) (result result' : Except NodeError NodeOutput),
    (handler.execute context).Leads t result → (handler.execute context).Leads t' result' →
      result = result'

theorem Handler.Determined.concurs {handler : Handler} (h : handler.Determined) (runId : String) :
    handler.Concurs runId runId :=
  fun context => h { context with runId }

namespace Executor

variable {executor : Executor} {run : Run} {flow : Flow} {input : Json} {clock : Clock}

/-- Two executions of one run that read one clock have the same outlines. -/
theorem Tour.outlines_eq (hdet : ∀ handler ∈ executor.registry.handlers, handler.Determined)
    {n : Nat} {visits others : List Visit} (h : executor.Tour run flow input visits)
    (h' : executor.Tour run flow input others)
    (hread : clock.Follows n (Entry.readings (Visit.logs executor run visits)))
    (hread' : clock.Follows n (Entry.readings (Visit.logs executor run others))) :
    visits.map Visit.outline = others.map Visit.outline := by
  have hconcurs : ∀ handler ∈ executor.registry.handlers, handler.Concurs run.id run.id :=
    fun handler hmem => (hdet handler hmem).concurs run.id
  exact Visit.outlines_of_essences (h.essences_eq hconcurs rfl h') hread hread'

end Executor

/-! ## The store has no say -/

namespace Chronicle

variable {executor : Executor} {run : Run} {flow : Flow} {input : Json}
  {chronicle other : Chronicle}

/-- Without the identifiers of its steps, a report is a function of the outlines. -/
theorem anonymous_report_eq
    (houtlines : chronicle.visits.map Visit.outline = other.visits.map Visit.outline)
    (hended : chronicle.ended = other.ended) :
    (chronicle.report executor run flow input).anonymous =
      (other.report executor run flow input).anonymous := by
  have hvisits := Visit.essences_of_outlines houtlines
  have hsteps : (chronicle.visits.map (Visit.step executor run.running)).map RunStep.anonymous =
      (other.visits.map (Visit.step executor run.running)).map RunStep.anonymous := by
    rw [Visit.anonymous_steps, houtlines, ← Visit.anonymous_steps]
  simp only [RunReport.anonymous, report, final, Visit.runError?_congr hvisits,
    Visit.leaveAll_congr hvisits, Visit.executed_congr hvisits, hsteps, hended]

/-- Where no handler reads the clock, the readings of the executor are those of the transcript. -/
theorem Tells.follows (hclock : ∀ handler ∈ executor.registry.handlers, handler.Clockless)
    {t : Transcript} {outcome : Except FlowError RunReport} {clock : Clock}
    (h : chronicle.Tells executor run flow input t outcome) (hread : clock.Follows 0 t.readings) :
    clock.Follows 0 (Entry.readings (chronicle.log executor run flow)) := by
  rw [h.transcript, Entry.readings_transcripts (quiet_log hclock h.tour)] at hread
  exact hread

/-- Two executions of one run that read one clock come to the same report, up to the identifiers of
the steps. -/
theorem Tells.anonymous_eq (hdet : ∀ handler ∈ executor.registry.handlers, handler.Determined)
    {t t' : Transcript} {outcome outcome' : Except FlowError RunReport} {clock : Clock}
    (h : chronicle.Tells executor run flow input t outcome)
    (h' : other.Tells executor run flow input t' outcome')
    (hread : clock.Follows 0 (Entry.readings (chronicle.log executor run flow)))
    (hread' : clock.Follows 0 (Entry.readings (other.log executor run flow))) :
    (chronicle.report executor run flow input).anonymous =
      (other.report executor run flow input).anonymous := by
  rw [readings_log] at hread hread'
  obtain ⟨hvisits, hended⟩ := Clock.follows_append.mp hread.2
  obtain ⟨hvisits', hended'⟩ := Clock.follows_append.mp hread'.2
  have houtlines := h.tour.outlines_eq hdet h'.tour hvisits hvisits'
  have hlength : chronicle.visits.length = other.visits.length := by
    simpa using congrArg List.length houtlines
  refine anonymous_report_eq houtlines ?_
  rw [hended.1, hended'.1, Visit.length_readings_logs, Visit.length_readings_logs, hlength]

end Chronicle

namespace Executor

variable {executor : Executor} {run : Run} {flow : Flow} {input : Json} {clock : Clock}

/-- In two worlds that show the same clock, whatever else they answer, a queued run comes to the
same report up to the identifiers of the steps, if the handlers go by their contexts and leave the
clock alone. -/
theorem runWith_anonymous_eq (hq : run.status = .queued)
    (hdet : ∀ handler ∈ executor.registry.handlers, handler.Determined)
    (hclock : ∀ handler ∈ executor.registry.handlers, handler.Clockless) {σ σ' : Type}
    (answer : (action : Action) → σ → action.Reply × σ)
    (answer' : (action : Action) → σ' → action.Reply × σ') (world : σ) (world' : σ') :
    ∃ report report',
      ((executor.execute run flow input).runWith (withClock clock answer) (0, world)).1 =
        .ok report ∧
      ((executor.execute run flow input).runWith (withClock clock answer') (0, world')).1 =
        .ok report' ∧
      report.anonymous = report'.anonymous := by
  obtain ⟨t, h, hread⟩ := Program.leads_withClock clock answer (executor.execute run flow input) 0
    world
  obtain ⟨t', h', hread'⟩ := Program.leads_withClock clock answer'
    (executor.execute run flow input) 0 world'
  obtain ⟨chronicle, htells⟩ := Program.leads_execute hq h
  obtain ⟨other, htells'⟩ := Program.leads_execute hq h'
  exact ⟨_, _, htells.outcome, htells'.outcome,
    htells.anonymous_eq hdet htells' (htells.follows hclock hread) (htells'.follows hclock hread')⟩

/-- However the store answers two executions of one queued run, they come to the same report up to
the identifiers of the steps, if the handlers go by their contexts and the executor reads the same
clock.  There is a chronicle of each execution, and the clock may be read off any. -/
theorem execute_anonymous_eq (executor : Executor) (run : Run) (flow : Flow) (input : Json)
    (hq : run.status = .queued)
    (hdet : ∀ handler ∈ executor.registry.handlers, handler.Determined)
    {t t' : Transcript} {outcome outcome' : Except FlowError RunReport}
    (h : (executor.execute run flow input).Leads t outcome)
    (h' : (executor.execute run flow input).Leads t' outcome') :
    (∃ chronicle : Chronicle, chronicle.Tells executor run flow input t outcome) ∧
    (∃ chronicle : Chronicle, chronicle.Tells executor run flow input t' outcome') ∧
    ∀ (chronicle other : Chronicle) (clock : Clock),
      chronicle.Tells executor run flow input t outcome →
      other.Tells executor run flow input t' outcome' →
      clock.Follows 0 (Entry.readings (chronicle.log executor run flow)) →
      clock.Follows 0 (Entry.readings (other.log executor run flow)) →
      ∃ report report', outcome = .ok report ∧ outcome' = .ok report' ∧
        report.anonymous = report'.anonymous := by
  refine ⟨Program.leads_execute hq h, Program.leads_execute hq h', ?_⟩
  intro chronicle other clock htells htells' hread hread'
  exact ⟨_, _, htells.outcome, htells'.outcome, htells.anonymous_eq hdet htells' hread hread'⟩

theorem fading_handlers : ∀ handler ∈ fading.registry.handlers,
    handler.Determined ∧ handler.Clockless := by
  intro handler h
  obtain ⟨result, hresult⟩ := fading_const handler h
  refine ⟨?_, ?_⟩
  · intro context t t' first second hfirst hsecond
    rw [hresult] at hfirst hsecond
    rw [(Program.leads_pure.mp hfirst).2, (Program.leads_pure.mp hsecond).2]
  · intro context
    rw [hresult]
    exact .pure _

/-- The line of three nodes, with a store that takes no record and with one that takes every. -/
theorem anonymous_eq_fadingLine :
    ∃ report report',
      ((fading.execute (.queued "f" .manual false ⟨0, 0⟩) fadingLine .null).runWith
        (withClock (fun n => ⟨n, 0⟩) outage) (0, ())).1 = .ok report ∧
      ((fading.execute (.queued "f" .manual false ⟨0, 0⟩) fadingLine .null).runWith
        (withClock (fun n => ⟨n, 0⟩) recording) (0, ())).1 = .ok report' ∧
      report.anonymous = report'.anonymous ∧
      report.steps.map RunStep.id = ["", "", ""] ∧
      report'.steps.map RunStep.id = ["r", "r", "r"] := by
  let run : Run := .queued "f" .manual false ⟨0, 0⟩
  let clock : Clock := fun n => ⟨n, 0⟩
  have hdet : ∀ handler ∈ fading.registry.handlers, handler.Determined :=
    fun handler h => (fading_handlers handler h).1
  have hclock : ∀ handler ∈ fading.registry.handlers, handler.Clockless :=
    fun handler h => (fading_handlers handler h).2
  obtain ⟨t, h, hread⟩ := Program.leads_withClock clock outage
    (fading.execute run fadingLine .null) 0 ()
  obtain ⟨t', h', hread'⟩ := Program.leads_withClock clock recording
    (fading.execute run fadingLine .null) 0 ()
  obtain ⟨⟨chronicle, htells⟩, ⟨other, htells'⟩, hsame⟩ :=
    execute_anonymous_eq fading run fadingLine .null rfl hdet h h'
  obtain ⟨report, report', hreport, hreport', heq⟩ := hsame chronicle other clock htells htells'
    (htells.follows hclock hread) (htells'.follows hclock hread')
  have hids : (((fading.execute run fadingLine .null).runWith (withClock clock outage)
      (0, ())).1.toOption.map fun report => report.steps.map RunStep.id) =
      some ["", "", ""] := rfl
  have hids' : (((fading.execute run fadingLine .null).runWith (withClock clock recording)
      (0, ())).1.toOption.map fun report => report.steps.map RunStep.id) =
      some ["r", "r", "r"] := rfl
  rw [hreport] at hids
  rw [hreport'] at hids'
  exact ⟨report, report', hreport, hreport', heq, Option.some.inj hids, Option.some.inj hids'⟩

end Executor

end FlowEngine
