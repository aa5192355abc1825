import FlowEngine.Proofs.Ledger.Writing
/-!
# `FlowEngine.Proofs.Ledger.Written` — what the ledger has written, it lists

The ledger writes in four ways: a run is inserted or its status saved, a step is inserted or
saved. `Written` says of a store that its collections of runs and steps come from such calls
alone, in any order and with any success.  Each call keeps them as lists of runs and of steps
(`Written.holds`), and a listing picks out of these lists what it is asked for.

So it is for identifiers without a quote.  The identifier is written between quotes into a filter as
it stands; a quote in it ends the text, and what comes behind is read as more of the filter.
-/

namespace FlowEngine

/-! ## Legible runs and steps -/

theorem Run.Legible.patched {run update : Run} (h : run.Legible) (hupdate : update.Legible) :
    (run.patched update).Legible where
  startedAt := h.startedAt
  finishedAt := by
    intro m hm
    rcases Option.or_eq_some_iff.mp hm with hm | ⟨-, hm⟩
    · exact hupdate.finishedAt m hm
    · exact h.finishedAt m hm

theorem RunStep.Legible.patched {step update : RunStep} (h : step.Legible)
    (hupdate : update.Legible) : (step.patched update).Legible where
  startedAt := h.startedAt
  finishedAt := by
    intro m hm
    rcases Option.or_eq_some_iff.mp hm with hm | ⟨-, hm⟩
    · exact hupdate.finishedAt m hm
    · exact h.finishedAt m hm

theorem Run.legible_queued {moment : Timestamp} (h : moment.Legible) {flowId : String}
    {triggerType : TriggerType} {testMode : Bool} :
    (Run.queued flowId triggerType testMode moment).Legible where
  startedAt := h
  finishedAt := by
    intro m hm
    cases hm

theorem RunStep.legible_begin {moment : Timestamp} (h : moment.Legible)
    {runId nodeId nodeType : String} {input : Option Json} :
    (RunStep.begin_ runId nodeId nodeType input moment).Legible where
  startedAt := h
  finishedAt := by
    intro m hm
    cases hm

/-! ## Read again -/

def Run.reread (run : Run) (inputEvent : Json) : Run :=
  (ofRecord? (run.stored inputEvent)).getD run

def RunStep.reread (step : RunStep) : RunStep := (ofRecord? step.stored).getD step

/-- A run that is read again is of the same flow, and begun at the same time. -/
theorem Run.Legible.reread {run : Run} (h : run.Legible) (inputEvent : Json) :
    Run.ofRecord? (run.stored inputEvent) = some (run.reread inputEvent) ∧
      (run.reread inputEvent).flowId = run.flowId ∧
      (run.reread inputEvent).startedAt = run.startedAt := by
  obtain ⟨read, hread, hflow, hstarted, -⟩ := Run.ofRecord?_stored h inputEvent
  have hself : run.reread inputEvent = read := by
    rw [Run.reread, hread, Option.getD_some]
  rw [hself]
  exact ⟨hread, hflow, hstarted⟩

/-- A step that is read again is of the same run, and begun at the same time. -/
theorem RunStep.Legible.reread {step : RunStep} (h : step.Legible) :
    RunStep.ofRecord? step.stored = some step.reread ∧ step.reread.runId = step.runId ∧
      step.reread.startedAt = step.startedAt := by
  obtain ⟨read, hread, hrun, hstarted, -⟩ := RunStep.ofRecord?_stored h
  have hself : step.reread = read := by
    rw [RunStep.reread, hread, Option.getD_some]
  rw [hself]
  exact ⟨hread, hrun, hstarted⟩

namespace Ledger

variable {ledger : Ledger} {store : MemoryStore} {runs : List (Run × Json)}
  {steps : List RunStep}

/-! ## Writing -/

variable (store)

theorem runWith_insertRun (run : Run) (inputEvent : Json) :
    ((ledger.insertRun run inputEvent).runWith MemoryStore.answer store).2 =
      (store.create ledger.runs (run.toRecord inputEvent)).2 := by
  rw [insertRun, MemoryStore.runWith_create_bind]
  cases (store.create ledger.runs (run.toRecord inputEvent)).1 with
  | error e => rfl
  | ok created => cases h : Json.recordId ledger.runs created <;> simp only [h] <;> rfl

theorem runWith_saveRunStatus (run : Run) :
    ((ledger.saveRunStatus run).runWith MemoryStore.answer store).2 =
      (store.update ledger.runs run.id run.toPatch).2 := by
  rw [saveRunStatus, MemoryStore.runWith_update_bind]
  cases (store.update ledger.runs run.id run.toPatch).1 <;> rfl

theorem runWith_insertStep (step : RunStep) :
    ((ledger.insertStep step).runWith MemoryStore.answer store).2 =
      (store.create ledger.steps step.toRecord).2 := by
  rw [insertStep, MemoryStore.runWith_create_bind]
  cases (store.create ledger.steps step.toRecord).1 <;> rfl

theorem runWith_saveStep (step : RunStep) :
    ((ledger.saveStep step).runWith MemoryStore.answer store).2 =
      (store.update ledger.steps step.id step.toPatch).2 := by
  rw [saveStep, MemoryStore.runWith_update_bind]
  cases (store.update ledger.steps step.id step.toPatch).1 <;> rfl

variable {store}

/-- All runs and steps in the store are written by the ledger, with moments that can be read back;
the other collections are anyone's. -/
inductive Written (ledger : Ledger) : MemoryStore → Prop where
  | empty {store : MemoryStore} :
      store.records ledger.runs = [] → store.records ledger.steps = [] → Written ledger store
  | insertRun {store : MemoryStore} {run : Run} (inputEvent : Json) :
      Written ledger store → run.Legible →
      Written ledger ((ledger.insertRun run inputEvent).runWith MemoryStore.answer store).2
  | saveRunStatus {store : MemoryStore} {run : Run} :
      Written ledger store → run.Legible →
      Written ledger ((ledger.saveRunStatus run).runWith MemoryStore.answer store).2
  | insertStep {store : MemoryStore} {step : RunStep} :
      Written ledger store → step.Legible →
      Written ledger ((ledger.insertStep step).runWith MemoryStore.answer store).2
  | saveStep {store : MemoryStore} {step : RunStep} :
      Written ledger store → step.Legible →
      Written ledger ((ledger.saveStep step).runWith MemoryStore.answer store).2
  | elsewhere {store store' : MemoryStore} :
      Written ledger store → store'.records ledger.runs = store.records ledger.runs →
      store'.records ledger.steps = store.records ledger.steps → Written ledger store'

theorem Written.holds (h : ledger.Written store) (hnames : ledger.runs ≠ ledger.steps) :
    ∃ runs steps, ledger.Holds store runs steps ∧ (∀ x ∈ runs, x.1.Legible) ∧
      ∀ step ∈ steps, step.Legible := by
  -- A call adds one value, changes one, or leaves everything as it is.
  induction h with
  | empty hruns hsteps =>
      exact ⟨[], [], ⟨hruns, hsteps⟩, List.forall_mem_nil _, List.forall_mem_nil _⟩
  | @insertRun store run inputEvent _ hrun ih =>
      obtain ⟨runs, steps, hholds, hruns, hsteps⟩ := ih
      rw [runWith_insertRun]
      rcases hholds.create_run hnames run inputEvent with ⟨-, hkept⟩ | ⟨-, hadded⟩
      · exact ⟨runs, steps, hkept, hruns, hsteps⟩
      · refine ⟨_, steps, hadded, ?_, hsteps⟩
        refine List.forall_mem_append.mpr ⟨hruns, List.forall_mem_singleton.mpr ?_⟩
        exact ⟨hrun.startedAt, hrun.finishedAt⟩
  | @saveRunStatus store run _ hrun ih =>
      obtain ⟨runs, steps, hholds, hruns, hsteps⟩ := ih
      rw [runWith_saveRunStatus]
      rcases hholds.update_run hnames run with hkept | ⟨before, old, event, after, rfl, hchanged⟩
      · exact ⟨runs, steps, hkept, hruns, hsteps⟩
      · refine ⟨_, steps, hchanged, ?_, hsteps⟩
        exact forall_mem_changed hruns fun hold => hold.patched hrun
  | @insertStep store step _ hstep ih =>
      obtain ⟨runs, steps, hholds, hruns, hsteps⟩ := ih
      rw [runWith_insertStep]
      rcases hholds.create_step hnames step with ⟨-, hkept⟩ | ⟨-, hadded⟩
      · exact ⟨runs, steps, hkept, hruns, hsteps⟩
      · refine ⟨runs, _, hadded, hruns, ?_⟩
        refine List.forall_mem_append.mpr ⟨hsteps, List.forall_mem_singleton.mpr ?_⟩
        exact ⟨hstep.startedAt, hstep.finishedAt⟩
  | @saveStep store step _ hstep ih =>
      obtain ⟨runs, steps, hholds, hruns, hsteps⟩ := ih
      rw [runWith_saveStep]
      rcases hholds.update_step hnames step with hkept | ⟨before, old, after, rfl, hchanged⟩
      · exact ⟨runs, steps, hkept, hruns, hsteps⟩
      · refine ⟨runs, _, hchanged, hruns, ?_⟩
        exact forall_mem_changed hsteps fun hold => hold.patched hstep
  | elsewhere _ hruns hsteps ih =>
      obtain ⟨runs, steps, hholds, hlegible⟩ := ih
      exact ⟨runs, steps, hholds.of_records hruns hsteps, hlegible⟩

/-! ## Listing -/

/-- The collections are read as these runs and these steps, in the order of their creation. -/
structure Reads (ledger : Ledger) (store : MemoryStore) (runs : List Run)
    (steps : List RunStep) : Prop where
  runs : (store.records ledger.runs).map Run.ofRecord? = runs.map some
  steps : (store.records ledger.steps).map RunStep.ofRecord? = steps.map some

/-- To pick, to sort and to cut by what is read is the same before the reading as behind it. -/
theorem map_take_mergeSort_filter {α β : Type} {read : α → β} {items : List α} {p : α → Bool}
    {q : β → Bool} {le : α → α → Bool} {le' : β → β → Bool}
    (hpick : ∀ a ∈ items, q (read a) = p a)
    (horder : ∀ a ∈ items, ∀ b ∈ items, le a b = le' (read a) (read b)) (n : Nat) :
    (((items.filter p).mergeSort le).take n).map read =
      (((items.map read).filter q).mergeSort le').take n := by
  have hfilter : (items.map read).filter q = (items.filter p).map read := by
    rw [List.filter_map]
    exact congrArg (List.map read) (List.filter_congr hpick)
  rw [hfilter, ← List.map_mergeSort, List.map_take]
  intro a ha b hb
  exact horder a (List.mem_filter.mp ha).1 b (List.mem_filter.mp hb).1

theorem Holds.reads (h : ledger.Holds store runs steps) (hruns : ∀ x ∈ runs, x.1.Legible)
    (hsteps : ∀ step ∈ steps, step.Legible) :
    ledger.Reads store (runs.map fun x => x.1.reread x.2) (steps.map RunStep.reread) where
  runs := by
    rw [h.runs, List.map_map, List.map_map]
    refine List.map_congr_left ?_
    intro x hx
    exact ((hruns x hx).reread x.2).1
  steps := by
    rw [h.steps, List.map_map, List.map_map]
    refine List.map_congr_left ?_
    intro step hstep
    exact (hsteps step hstep).reread.1

theorem Holds.listRuns_reread (h : ledger.Holds store runs steps)
    (hruns : ∀ x ∈ runs, x.1.Legible) {flowId : String} (hquote : '"' ∉ flowId.toList) :
    ((ledger.listRuns flowId).runWith MemoryStore.answer store).1 =
      .ok ((((runs.map fun x => x.1.reread x.2).filter (·.flowId == flowId)).mergeSort
        Run.newestFirst).take 50) := by
  rw [h.listRuns hquote fun x hx _ => ⟨(hruns x hx).startedAt, ((hruns x hx).reread x.2).1⟩]
  refine congrArg Except.ok (map_take_mergeSort_filter ?_ ?_ 50)
  · intro x hx
    rw [((hruns x hx).reread x.2).2.1]
  · intro x hx y hy
    rw [Run.newestFirst, Run.newestFirst, ((hruns x hx).reread x.2).2.2,
      ((hruns y hy).reread y.2).2.2]

theorem Holds.listSteps_reread (h : ledger.Holds store runs steps)
    (hsteps : ∀ step ∈ steps, step.Legible) {runId : String} (hquote : '"' ∉ runId.toList) :
    ((ledger.listSteps runId).runWith MemoryStore.answer store).1 =
      .ok ((((steps.map RunStep.reread).filter (·.runId == runId)).mergeSort
        RunStep.oldestFirst).take 200) := by
  rw [h.listSteps hquote fun step hstep _ =>
    ⟨(hsteps step hstep).startedAt, (hsteps step hstep).reread.1⟩]
  refine congrArg Except.ok (map_take_mergeSort_filter ?_ ?_ 200)
  · intro step hstep
    rw [(hsteps step hstep).reread.2.1]
  · intro x hx y hy
    rw [RunStep.oldestFirst, RunStep.oldestFirst, (hsteps x hx).reread.2.2,
      (hsteps y hy).reread.2.2]

/-- Whatever the ledger has written, all of it can be read.  The listing for an identifier without a
quote gives the runs of that flow and no others, the newest first; the listing of steps gives those
of that run and no others, the oldest first.  What was begun at the same time stays in the order of
its creation, and a listing ends after fifty runs or two hundred steps. -/
theorem Written.listed_by_id (h : ledger.Written store) (hnames : ledger.runs ≠ ledger.steps) :
    ∃ runs steps, ledger.Reads store runs steps ∧
      (∀ flowId : String, '"' ∉ flowId.toList →
        ((ledger.listRuns flowId).runWith MemoryStore.answer store).1 =
          .ok (((runs.filter (·.flowId == flowId)).mergeSort Run.newestFirst).take 50)) ∧
      ∀ runId : String, '"' ∉ runId.toList →
        ((ledger.listSteps runId).runWith MemoryStore.answer store).1 =
          .ok (((steps.filter (·.runId == runId)).mergeSort RunStep.oldestFirst).take 200) := by
  obtain ⟨runs, steps, hholds, hruns, hsteps⟩ := h.holds hnames
  refine ⟨_, _, hholds.reads hruns hsteps, ?_, ?_⟩
  · intro flowId hquote
    exact hholds.listRuns_reread hruns hquote
  · intro runId hquote
    exact hholds.listSteps_reread hsteps hquote

/-- A ledger that has a run of the flow `f`, with a step, and a run of the flow `g`. -/
def ofTwoFlows : MemoryStore :=
  let ledger : Ledger := {}
  let store := ((ledger.insertRun (.queued "f" .manual false ⟨0, 0⟩) .null).runWith
    MemoryStore.answer {}).2
  let store := ((ledger.insertRun (.queued "g" .manual false ⟨0, 0⟩) .null).runWith
    MemoryStore.answer store).2
  ((ledger.insertStep (.begin_ "<id:1>" "t" "trigger.manual" none ⟨0, 0⟩)).runWith
    MemoryStore.answer store).2

theorem written_ofTwoFlows : Written {} ofTwoFlows := by
  have hmoment : (⟨0, 0⟩ : Timestamp).Legible := by
    unfold Timestamp.Legible
    decide +kernel
  refine Written.insertStep (.insertRun .null (.insertRun .null (.empty rfl rfl) ?_) ?_) ?_
  · exact Run.legible_queued hmoment
  · exact Run.legible_queued hmoment
  · exact RunStep.legible_begin hmoment

theorem listed_ofTwoFlows :
    ({} : Ledger).runs ≠ ({} : Ledger).steps ∧ Written {} ofTwoFlows ∧ '"' ∉ "f".toList ∧
      '"' ∉ "<id:1>".toList ∧ ∃ runs steps, Reads {} ofTwoFlows runs steps ∧
        runs.map Run.flowId = ["f", "g"] ∧
        ((listRuns {} "f").runWith MemoryStore.answer ofTwoFlows).1 =
          .ok (((runs.filter (·.flowId == "f")).mergeSort Run.newestFirst).take 50) ∧
        ((listSteps {} "<id:1>").runWith MemoryStore.answer ofTwoFlows).1 =
          .ok (((steps.filter (·.runId == "<id:1>")).mergeSort RunStep.oldestFirst).take 200) := by
  have hnames : ({} : Ledger).runs ≠ ({} : Ledger).steps := by decide
  have hflow : '"' ∉ "f".toList := by decide
  have hrun : '"' ∉ "<id:1>".toList := by decide
  obtain ⟨runs, steps, hreads, hlistRuns, hlistSteps⟩ :=
    written_ofTwoFlows.listed_by_id hnames
  have hflows : (ofTwoFlows.records "runs").map (fun r => (Run.ofRecord? r).map Run.flowId) =
      [some "f", some "g"] := by decide +kernel
  refine ⟨hnames, written_ofTwoFlows, hflow, hrun, runs, steps, hreads, ?_, hlistRuns "f" hflow,
    hlistSteps "<id:1>" hrun⟩
  refine (List.map_inj_right fun _ _ => Option.some.inj).mp ?_
  have hread := congrArg (List.map (Option.map Run.flowId)) hreads.runs
  rw [List.map_map, List.map_map] at hread
  rw [List.map_map]
  exact hread.symm.trans hflows

theorem eq_of_mem_listing {α : Type} {key : α → String} {asked value : String} {items : List α}
    {le : α → α → Bool} {n : Nat}
    (h : value ∈ (((items.filter (key · == asked)).mergeSort le).take n).map key) :
    value = asked := by
  obtain ⟨a, ha, rfl⟩ := List.mem_map.mp h
  have hpicked := (List.mem_filter.mp (List.mem_mergeSort.mp (List.mem_of_mem_take ha))).2
  exact beq_iff_eq.mp hpicked

/-- An identifier that ends its own text can ask for the runs of every flow, and one with a single
quote asks for nothing that can be understood. -/
theorem not_listed_quoted : Written {} ofTwoFlows ∧
    (¬ ∀ flowId, ∃ runs steps, Reads {} ofTwoFlows runs steps ∧
      ((listRuns {} flowId).runWith MemoryStore.answer ofTwoFlows).1 =
        .ok (((runs.filter (·.flowId == flowId)).mergeSort Run.newestFirst).take 50)) ∧
    (¬ ∀ runId, ∃ runs steps, Reads {} ofTwoFlows runs steps ∧
      ((listSteps {} runId).runWith MemoryStore.answer ofTwoFlows).1 =
        .ok (((steps.filter (·.runId == runId)).mergeSort RunStep.oldestFirst).take 200)) ∧
    ((listRuns {} "a\"b").runWith MemoryStore.answer ofTwoFlows).1.toOption = none := by
  refine ⟨written_ofTwoFlows, ?_, ?_, by decide +kernel⟩
  · intro h
    obtain ⟨runs, steps, -, hlist⟩ := h "\" || \"1\" = \"1"
    have hall : (((listRuns {} "\" || \"1\" = \"1").runWith MemoryStore.answer
        ofTwoFlows).1.toOption.map (List.map Run.flowId)) = some ["f", "g"] := by decide +kernel
    rw [hlist] at hall
    have hmem := List.mem_cons_self (a := "f") (l := ["g"])
    rw [← Option.some.inj hall] at hmem
    exact absurd (eq_of_mem_listing hmem) (by decide)
  · intro h
    obtain ⟨runs, steps, -, hlist⟩ := h "\" || \"1\" = \"1"
    have hall : (((listSteps {} "\" || \"1\" = \"1").runWith MemoryStore.answer
        ofTwoFlows).1.toOption.map (List.map RunStep.runId)) = some ["<id:1>"] := by decide +kernel
    rw [hlist] at hall
    have hmem := List.mem_singleton_self "<id:1>"
    rw [← Option.some.inj hall] at hmem
    exact absurd (eq_of_mem_listing hmem) (by decide)

end Ledger

end FlowEngine
