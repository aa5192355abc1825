import FlowEngine.Proofs.Execution.Background
/-!
# `FlowEngine.Proofs.Execution.Terminal` — the end of a run is final

Whether a run may go on is decided by the value that is handed to its execution, and where it stands
is kept in the store, as a patch over the record.  A patch clears nothing.  So what is kept is right
as long as the patches come in the order of a life: some while the run is under way, and behind the
one with which it ends none (`Run.Course`).

Whatever the calls on an engine are and however they are interleaved, the record of a run that has
ended says when, and that of a run that has failed says why.  Each call lays the patches of a life
over the record of one run, in their order (`Engine.orderly_perform`).  Where a run is executed once,
that is all that is laid over its record, and so its end is final (`Engine.terminal_for_good`).
Nothing keeps a queued run from being executed twice, and then it is not: a run that has failed is
made a success, with its error (`Engine.not_terminal_twice`).
-/

namespace FlowEngine

open MemoryStore (hasId)

/-! ## The life of a run -/

/-- A run says when it has ended if it has ended, and no other does. -/
structure Run.Coherent (run : Run) : Prop where
  finishedAt : run.finishedAt.isSome = true ↔ run.status.isTerminal = true
  error : run.error.isSome = true ↔ run.status = .failed

/-- A run that has ended says when, and a run that has failed says why. -/
structure Run.Explained (run : Run) : Prop where
  finishedAt : run.status.isTerminal = true → run.finishedAt.isSome = true
  error : run.status = .failed → run.error.isSome = true

namespace Run

variable {run update : Run} {patches more : List Json.Members} {patch : Json.Members}
  {inputEvent : Json}

theorem Coherent.explained (h : run.Coherent) : run.Explained :=
  ⟨h.finishedAt.mpr, h.error.mpr⟩

theorem Coherent.unsaid (h : run.Coherent) (hopen : run.status.isTerminal = false) :
    run.finishedAt = none ∧ run.error = none := by
  constructor
  · rw [← Option.not_isSome_iff_eq_none, h.finishedAt, hopen]
    exact Bool.false_ne_true
  · rw [← Option.not_isSome_iff_eq_none, h.error]
    intro hfailed
    rw [hfailed] at hopen
    cases hopen

theorem coherent_queued (flowId : String) (triggerType : TriggerType) (testMode : Bool)
    (moment : Timestamp) : (queued flowId triggerType testMode moment).Coherent :=
  ⟨by simp [queued, RunStatus.isTerminal], by simp [queued]⟩

theorem Coherent.running (h : run.Coherent) (hqueued : run.status = .queued) :
    run.running.Coherent := by
  obtain ⟨hfinished, herror⟩ := h.unsaid (by rw [hqueued]; rfl)
  constructor
  · simp [Run.running, hfinished, RunStatus.isTerminal]
  · simp [Run.running, herror]

theorem Coherent.ended (h : run.Coherent) (hopen : run.status.isTerminal = false)
    (moment : Timestamp) (error : Option String) :
    (run.ended moment error).Coherent ∧ (run.ended moment error).status.isTerminal = true := by
  obtain ⟨-, herror⟩ := h.unsaid hopen
  cases error with
  | none => exact ⟨⟨by simp [Run.ended, RunStatus.isTerminal], by simp [Run.ended, herror]⟩, rfl⟩
  | some e => exact ⟨⟨by simp [Run.ended, RunStatus.isTerminal], by simp [Run.ended]⟩, rfl⟩

theorem Coherent.patched (h : run.Coherent) (hopen : run.status.isTerminal = false)
    (hupdate : update.Coherent) : (run.patched update).Coherent := by
  obtain ⟨hfinished, herror⟩ := h.unsaid hopen
  constructor
  · rw [Run.patched, hfinished, Option.or_none]
    exact hupdate.finishedAt
  · rw [Run.patched, herror, Option.or_none]
    exact hupdate.error

/-- What patches a run is explained, whatever stood there before. -/
theorem Explained.patched (hupdate : update.Explained) (run : Run) :
    (run.patched update).Explained := by
  constructor
  · intro hterminal
    rw [Run.patched, Option.isSome_or, hupdate.finishedAt hterminal]
    rfl
  · intro hfailed
    rw [Run.patched, Option.isSome_or, hupdate.error hfailed]
    rfl

theorem status_eq_of_toPatch {other : Run} (h : run.toPatch = other.toPatch) :
    run.status = other.status := by
  have hget := congrArg (Json.get? "status") h
  rw [get?_toPatch, get?_toPatch, if_pos rfl, if_pos rfl] at hget
  have htext := Json.string.inj (Option.some.inj hget)
  revert htext
  cases run.status <;> cases other.status <;> decide

/-! ### Patches -/

/-- The patches of a life: each is that of a coherent run, and behind the end there is none. -/
structure Course (patches : List Json.Members) : Prop where
  coherent : ∀ patch ∈ patches, ∃ run : Run, run.Coherent ∧ run.toPatch = .object patch
  openEnded : patches.Pairwise fun patch _ =>
    ∃ run : Run, run.status.isTerminal = false ∧ run.toPatch = .object patch

theorem Course.sublist (h : Course more) (hsub : patches.Sublist more) : Course patches :=
  ⟨fun patch hmem => h.coherent patch (hsub.subset hmem), h.openEnded.sublist hsub⟩

/-- The patches of a life, laid over the record of a run that has not ended. -/
theorem Course.laid (h : Course patches) (hrun : run.Coherent)
    (hopen : run.status.isTerminal = false) (inputEvent : Json) :
    ∃ told : Run, told.id = run.id ∧
      Transcript.laid (run.stored inputEvent) patches = told.stored inputEvent ∧ told.Coherent ∧
      (told.status.isTerminal = true → ∀ more, Course (patches ++ more) → more = []) := by
  induction patches using List.reverseRecOn with
  | nil => exact ⟨run, rfl, rfl, hrun, fun hended => by rw [hopen] at hended; cases hended⟩
  | append_singleton patches last ih =>
      obtain ⟨told, hid, hlaid, hcoherent, hfinal⟩ := ih (h.sublist (List.sublist_append_left _ _))
      -- There is a patch behind, so the run has not ended yet.
      have htold : told.status.isTerminal = false := by
        rw [← Bool.not_eq_true]
        intro hended
        cases hfinal hended [last] h
      obtain ⟨update, hupdate, hpatch⟩ :=
        h.coherent last (List.mem_append_right _ (List.mem_singleton_self last))
      obtain ⟨members, hmembers, hoverlay⟩ := told.overlay_stored update inputEvent
      obtain rfl : last = members := Json.object.inj (hpatch.symm.trans hmembers)
      refine ⟨told.patched update, hid, ?_, hcoherent.patched htold hupdate, ?_⟩
      · rw [Transcript.laid_concat, hlaid, hoverlay]
      · intro hended more hmore
        cases more with
        | nil => rfl
        | cons next rest =>
            obtain ⟨other, hother, hsame⟩ := (List.pairwise_append.mp hmore.openEnded).2.2 last
              (List.mem_append_right _ (List.mem_singleton_self last)) next List.mem_cons_self
            have hstatus := status_eq_of_toPatch (hsame.trans hpatch.symm)
            rw [hstatus] at hother
            exact absurd hended (by rw [Run.patched, hother]; exact Bool.false_ne_true)

/-- Patches of coherent runs in any order, laid over the record of a run. -/
theorem laid_explained (h : ∀ patch ∈ patches, ∃ run : Run, run.Coherent ∧
      run.toPatch = .object patch) (hrun : run.Explained) (inputEvent : Json) :
    ∃ told : Run, told.id = run.id ∧
      Transcript.laid (run.stored inputEvent) patches = told.stored inputEvent ∧
      told.Explained := by
  induction patches using List.reverseRecOn with
  | nil => exact ⟨run, rfl, rfl, hrun⟩
  | append_singleton patches last ih =>
      obtain ⟨hearlier, hlast⟩ := List.forall_mem_append.mp h
      obtain ⟨told, hid, hlaid, -⟩ := ih hearlier
      obtain ⟨update, hupdate, hpatch⟩ := hlast last (List.mem_singleton_self last)
      obtain ⟨members, hmembers, hoverlay⟩ := told.overlay_stored update inputEvent
      obtain rfl : last = members := Json.object.inj (hpatch.symm.trans hmembers)
      refine ⟨told.patched update, hid, ?_, hupdate.explained.patched told⟩
      rw [Transcript.laid_concat, hlaid, hoverlay]

end Run

/-! ## What is written of runs -/

/-- What a transcript writes of runs is in order: a run is created coherent and before its end, and
the patches of every record are those of a life. -/
structure Ledger.Orderly (ledger : Ledger) (t : Transcript) : Prop where
  created : ∀ created ∈ t.created ledger.runs, ∃ (run : Run) (inputEvent : Json),
    run.Coherent ∧ run.status.isTerminal = false ∧ run.toRecord inputEvent = .object created.2
  patched : ∀ id, Run.Course (t.patchesOf ledger.runs id)

namespace Ledger

variable {ledger : Ledger} {t t' : Transcript}

theorem Orderly.earlier (h : ledger.Orderly (t ++ t')) : ledger.Orderly t := by
  constructor
  · intro created hmem
    refine h.created created ?_
    rw [Transcript.created, List.filterMap_append]
    exact List.mem_append_left _ hmem
  · intro id
    have hall := h.patched id
    rw [Transcript.patchesOf_append] at hall
    exact hall.sublist (List.sublist_append_left _ _)

theorem orderly_nil : ledger.Orderly [] :=
  ⟨List.forall_mem_nil _, fun _ => ⟨List.forall_mem_nil _, .nil⟩⟩

/-- Whether runs are written in order is told by what is written to their collection. -/
theorem orderly_writes : ledger.Orderly (Transcript.writes ledger.runs t) ↔ ledger.Orderly t := by
  constructor
  · rintro ⟨hcreated, hpatched⟩
    rw [Transcript.created_writes] at hcreated
    simp only [Transcript.patchesOf_writes] at hpatched
    exact ⟨hcreated, hpatched⟩
  · rintro ⟨hcreated, hpatched⟩
    rw [← Transcript.created_writes] at hcreated
    simp only [← Transcript.patchesOf_writes ledger.runs _ t] at hpatched
    exact ⟨hcreated, hpatched⟩

theorem Orderly.stored (h : ledger.Orderly t) (moment : Timestamp) {run : Run}
    (hrun : run.Coherent) (hopen : run.status.isTerminal = false) (inputEvent : Json)
    (created : Except StoreError Json) :
    ledger.Orderly (⟨.now, moment⟩ :: ⟨.create ledger.runs (run.toRecord inputEvent), created⟩ ::
      t) := by
  constructor
  · intro pair hmem
    obtain ⟨exchange, hexchange, hcreated⟩ := List.mem_filterMap.mp hmem
    rcases List.mem_cons.mp hexchange with rfl | hexchange
    · cases hcreated
    · rcases List.mem_cons.mp hexchange with rfl | hexchange
      · exact ⟨run, inputEvent, hrun, hopen,
          (Action.create.inj (Exchange.action_of_created hcreated)).2⟩
      · exact h.created pair (List.mem_filterMap.mpr ⟨exchange, hexchange, hcreated⟩)
  · intro id
    have hnone : ∀ exchange : Exchange, exchange.patched? ledger.runs = none →
        Transcript.patchesOf [exchange] ledger.runs id = [] := by
      intro exchange hpatched
      rw [Transcript.patchesOf, Transcript.patched, List.filterMap_cons_none hpatched]
      rfl
    have hcreate : Exchange.patched? ledger.runs
        ⟨.create ledger.runs (run.toRecord inputEvent), created⟩ = none := rfl
    rw [Transcript.patchesOf_cons, hnone _ rfl, Transcript.patchesOf_cons, hnone _ hcreate]
    exact h.patched id

end Ledger

theorem Transcript.pairwise_patchesOf_singleton (r : Json.Members → Json.Members → Prop)
    (exchange : Exchange) (collection id : String) :
    (Transcript.patchesOf [exchange] collection id).Pairwise r := by
  have hone : (Transcript.patched [exchange] collection).Pairwise fun _ _ => False := by
    unfold Transcript.patched
    cases h : exchange.patched? collection with
    | none => simp [h]
    | some patched => simp [h]
  exact List.Pairwise.map _ (fun _ _ hfalse => hfalse.elim) (hone.filter _)

theorem Chronicle.orderly_calls {executor : Executor} {run : Run} (chronicle : Chronicle)
    (hrun : run.Coherent) (hqueued : run.status = .queued) :
    executor.settings.ledger.Orderly (chronicle.calls executor run) := by
  have hrunning := hrun.running hqueued
  obtain ⟨hfinal, -⟩ :=
    hrunning.ended rfl chronicle.ended (Visit.runError? chronicle.visits)
  have hpatch : ∀ {update : Run} {saved : Except StoreError Json} {id : String},
      ∀ patch ∈ Transcript.patchesOf
        [⟨.update executor.settings.ledger.runs run.id update.toPatch, saved⟩]
        executor.settings.ledger.runs id, update.toPatch = .object patch := by
    intro update saved id patch hmem
    obtain ⟨exchange, hexchange, hpatched⟩ := Transcript.mem_patchesOf.mp hmem
    obtain rfl := List.mem_singleton.mp hexchange
    exact (Action.update.inj (Exchange.action_of_patched hpatched)).2.2
  constructor
  · intro created hmem
    simp [calls, Transcript.created, Exchange.created?] at hmem
  · intro id
    rw [calls, Transcript.patchesOf_cons]
    constructor
    · exact List.forall_mem_append.mpr ⟨fun patch hmem => ⟨_, hrunning, hpatch patch hmem⟩,
        fun patch hmem => ⟨_, hfinal, hpatch patch hmem⟩⟩
    · exact List.pairwise_append.mpr ⟨Transcript.pairwise_patchesOf_singleton _ _ _ _,
        Transcript.pairwise_patchesOf_singleton _ _ _ _,
        fun patch hmem _ _ => ⟨run.running, rfl, hpatch patch hmem⟩⟩

/-! ## Calls on an engine -/

namespace Engine

/-- A call on an engine that creates a run or executes one. -/
inductive Call where
  | create (start : Start)
  | execute (run : Run) (flow : Flow) (input : Json)
  | run (start : Start)
  | start (start : Start)

/-- A run that is handed to its execution is coherent if it is queued. -/
def Call.Genuine : Call → Prop
  | .execute given _ _ => given.status = .queued → given.Coherent
  | _ => True

/-- The whole of what a call does, with the task that it starts; what comes of it is a run. -/
def perform (engine : Engine) : Call → Program (Except FlowError Run)
  | .create start => engine.createRun start.flow start.triggerType start.input start.testMode
  | .execute run flow input => do return (← engine.execute run flow input).map RunReport.run
  | .run start => do
    return (← engine.runFlow start.flow start.triggerType start.input start.testMode).map
      RunReport.run
  | .start start => do return (← engine.background start).map RunReport.run

open Transcript (patchesOf share)

variable {engine : Engine} {t : Transcript}

theorem orderly_tells (hnames : engine.settings.ledger.runs ≠ engine.settings.ledger.steps)
    (hspares : ∀ handler ∈ engine.registry.handlers, ∀ context,
      (handler.execute context).Spares engine.settings.ledger.runs)
    {run : Run} {flow : Flow} {input : Json} {outcome : Except FlowError RunReport}
    {chronicle : Chronicle} (htells : chronicle.Tells engine run flow input t outcome)
    (hrun : run.Coherent) (hqueued : run.status = .queued) :
    engine.settings.ledger.Orderly t := by
  have hwork := htells.tour.inTurn.isWork
  have hwrites := @Chronicle.writes_log_runs engine run flow chronicle hnames hwork
    fun visit hvisit => Visit.spares_of_resolved (hwork visit hvisit)
      fun handler hr => hspares handler (Registry.mem_of_resolve? hr) _
  rw [← Ledger.orderly_writes, htells.transcript, hwrites]
  exact chronicle.orderly_calls hrun hqueued

theorem orderly_execute (hnames : engine.settings.ledger.runs ≠ engine.settings.ledger.steps)
    (hspares : ∀ handler ∈ engine.registry.handlers, ∀ context,
      (handler.execute context).Spares engine.settings.ledger.runs)
    {run : Run} {flow : Flow} {input : Json} {outcome : Except FlowError RunReport}
    (hrun : run.status = .queued → run.Coherent)
    (h : (engine.execute run flow input).Leads t outcome) : engine.settings.ledger.Orderly t := by
  by_cases hqueued : run.status = .queued
  · obtain ⟨chronicle, htells⟩ := Program.leads_execute hqueued h
    exact orderly_tells hnames hspares htells (hrun hqueued) hqueued
  · -- A run that is not queued is turned away before anything is written.
    have hstart : ∃ e, run.start = .error e := by
      unfold Run.start Run.transition
      revert hqueued
      cases run.status <;> simp [RunStatus.mayBecome]
    obtain ⟨e, hstart⟩ := hstart
    obtain ⟨watch, rest, rfl, hrest⟩ := Program.leads_elapsed_bind.mp h
    rw [hstart] at hrest
    obtain ⟨rfl, -⟩ := Program.leads_pure.mp hrest
    exact Ledger.orderly_writes.mp Ledger.orderly_nil

/-- A run that is stored when it is queued, with whatever is written of it then. -/
theorem orderly_begun {α : Type} {start : Start}
    {GoesOn : Run → Transcript → Except FlowError α → Prop} {outcome : Except FlowError α}
    (h : engine.Begun start.flow start.triggerType start.input start.testMode GoesOn t outcome)
    (hrest : ∀ (run : Run) (rest : Transcript) (outcome : Except FlowError α), run.Coherent →
      run.status = .queued → GoesOn run rest outcome → engine.settings.ledger.Orderly rest) :
    engine.settings.ledger.Orderly t := by
  have hqueued : ∀ {run : Run},
      run = .queued start.flow.id start.triggerType start.testMode run.startedAt →
        run.Coherent ∧ run.status = .queued := by
    intro run hrun
    rw [hrun]
    exact ⟨Run.coherent_queued _ _ _ _, rfl⟩
  cases h with
  | refused => exact Ledger.orderly_nil
  | unnamed _ hrun =>
      obtain ⟨hcoherent, hstatus⟩ := hqueued hrun
      exact Ledger.orderly_nil.stored _ hcoherent (by rw [hstatus]; rfl) _ _
  | @named run _ id _ _ _ hrun _ hgoes =>
      obtain ⟨hcoherent, hstatus⟩ := hqueued hrun
      refine Ledger.Orderly.stored ?_ _ hcoherent (by rw [hstatus]; rfl) _ _
      have hnamed : ({ run with id } : Run).Coherent := ⟨hcoherent.finishedAt, hcoherent.error⟩
      exact hrest _ _ _ hnamed hstatus hgoes

theorem orderly_perform (hnames : engine.settings.ledger.runs ≠ engine.settings.ledger.steps)
    (hspares : ∀ handler ∈ engine.registry.handlers, ∀ context,
      (handler.execute context).Spares engine.settings.ledger.runs)
    {call : Call} (hcall : call.Genuine) {outcome : Except FlowError Run}
    (h : (engine.perform call).Leads t outcome) : engine.settings.ledger.Orderly t := by
  cases call with
  | create start =>
      refine orderly_begun (Program.leads_createRun h) ?_
      rintro run _ _ - - ⟨rfl, -⟩
      exact Ledger.orderly_nil
  | execute run flow input =>
      obtain ⟨t, t', report, rfl, hexecute, h'⟩ := Program.leads_bind.mp h
      obtain ⟨rfl, -⟩ := Program.leads_pure.mp h'
      rw [List.append_nil]
      exact orderly_execute hnames hspares hcall hexecute
  | run start =>
      obtain ⟨t, t', report, rfl, hrun, h'⟩ := Program.leads_bind.mp h
      obtain ⟨rfl, -⟩ := Program.leads_pure.mp h'
      rw [List.append_nil]
      refine orderly_begun (Program.leads_runFlow hrun) ?_
      intro run rest outcome hcoherent _ hexecute
      exact orderly_execute hnames hspares (fun _ => hcoherent) hexecute
  | start start =>
      obtain ⟨t, t', report, rfl, hrun, h'⟩ := Program.leads_bind.mp h
      obtain ⟨rfl, -⟩ := Program.leads_pure.mp h'
      rw [List.append_nil]
      refine orderly_begun (Program.leads_background hrun) ?_
      rintro run _ outcome hcoherent hstatus ⟨task, execution, chronicle, rfl, htells⟩
      have horderly := orderly_tells hnames hspares htells hcoherent hstatus
      rw [← Ledger.orderly_writes] at horderly ⊢
      exact horderly

/-! ## Any number of calls -/

variable {ι : Type} [DecidableEq ι] {calls : ι → Call}
  {left : ι → Program (Except FlowError Run)} {store current : MemoryStore}
  {history : List (Option ι × Exchange)} {id : String}

theorem orderly_share (hnames : engine.settings.ledger.runs ≠ engine.settings.ledger.steps)
    (hspares : ∀ handler ∈ engine.registry.handlers, ∀ context,
      (handler.execute context).Spares engine.settings.ledger.runs)
    (hcalls : ∀ i, (calls i).Genuine)
    (h : Interleaved (fun i => engine.perform (calls i)) store left current history) (i : ι) :
    engine.settings.ledger.Orderly (share history i) := by
  obtain ⟨rest, outcome, hleads⟩ := h.begun i
  exact (orderly_perform hnames hspares (hcalls i) hleads).earlier

end Engine

section Several

variable {ι : Type} [DecidableEq ι] {ledger : Ledger} {history : List (Option ι × Exchange)}
  {id : String}

open Transcript (patchesOf share)

/-- No two of several have patched the record of an identifier. -/
def Transcript.Undisputed (collection : String) (history : List (Option ι × Exchange))
    (id : String) : Prop :=
  ∀ i j, patchesOf (share history i) collection id ≠ [] →
    patchesOf (share history j) collection id ≠ [] → i = j

theorem exists_owner_of_touched
    (hasides : ∀ asked ∈ history, asked.1 = none →
      asked.2.action.written? ≠ some ledger.runs)
    {asked : Option ι × Exchange} (hasked : asked ∈ history)
    (htouched : (asked.2.touched? ledger.runs).isSome = true) :
    ∃ i, asked.1 = some i ∧ asked.2 ∈ share history i := by
  cases howner : asked.1 with
  | none =>
      rw [Exchange.touched?_of_not_written (hasides asked hasked howner)] at htouched
      cases htouched
  | some i => exact ⟨i, rfl, Transcript.mem_share hasked howner⟩

/-- Where each of several has written in order, whatever was created is a coherent run, and so is
whatever was patched. -/
theorem told_of_orderly (id : String) (h : ∀ i, ledger.Orderly (share history i))
    (hasides : ∀ asked ∈ history, asked.1 = none →
      asked.2.action.written? ≠ some ledger.runs) :
    (∀ created ∈ Transcript.created (history.map Prod.snd) ledger.runs,
        ∃ (run : Run) (inputEvent : Json), run.Coherent ∧ run.status.isTerminal = false ∧
          run.toRecord inputEvent = .object created.2) ∧
      ∀ patch ∈ patchesOf (history.map Prod.snd) ledger.runs id,
        ∃ run : Run, run.Coherent ∧ run.toPatch = .object patch := by
  constructor
  · intro created hmem
    obtain ⟨exchange, hexchange, hcreated⟩ := List.mem_filterMap.mp hmem
    obtain ⟨asked, hasked, rfl⟩ := List.mem_map.mp hexchange
    have htouched := Exchange.touched?_of_created hcreated
    obtain ⟨i, -, hshare⟩ := exists_owner_of_touched hasides hasked (by rw [htouched]; rfl)
    exact (h i).created created (List.mem_filterMap.mpr ⟨_, hshare, hcreated⟩)
  · intro patch hmem
    obtain ⟨exchange, hexchange, hpatched⟩ := Transcript.mem_patchesOf.mp hmem
    obtain ⟨asked, hasked, rfl⟩ := List.mem_map.mp hexchange
    have htouched := Exchange.touched?_of_patched hpatched
    obtain ⟨i, -, hshare⟩ := exists_owner_of_touched hasides hasked (by rw [htouched]; rfl)
    exact ((h i).patched id).coherent patch
      (Transcript.mem_patchesOf.mpr ⟨_, hshare, hpatched⟩)

/-- The patches of a record that one of several has patched at most are those of a life. -/
theorem course_of_undisputed (h : ∀ i, ledger.Orderly (share history i))
    (hasides : ∀ asked ∈ history, asked.1 = none →
      asked.2.action.written? ≠ some ledger.runs)
    (hundisputed : Transcript.Undisputed ledger.runs history id) :
    Run.Course (patchesOf (history.map Prod.snd) ledger.runs id) := by
  have howner : ∀ asked ∈ history, patchesOf [asked.2] ledger.runs id ≠ [] →
      ∃ i, asked.1 = some i ∧ patchesOf (share history i) ledger.runs id ≠ [] := by
    intro asked hasked hne
    obtain ⟨patch, hpatch⟩ := List.exists_mem_of_ne_nil _ hne
    obtain ⟨exchange, hexchange, hpatched⟩ := Transcript.mem_patchesOf.mp hpatch
    obtain rfl := List.mem_singleton.mp hexchange
    have htouched := Exchange.touched?_of_patched hpatched
    obtain ⟨i, hi, hshare⟩ := exists_owner_of_touched hasides hasked (by rw [htouched]; rfl)
    exact ⟨i, hi, List.ne_nil_of_mem (Transcript.mem_patchesOf.mpr ⟨_, hshare, hpatched⟩)⟩
  by_cases hpatched : ∃ i, patchesOf (share history i) ledger.runs id ≠ []
  · obtain ⟨i, hi⟩ := hpatched
    rw [Transcript.patchesOf_share (i := i)]
    · exact (h i).patched id
    · intro asked hasked hother
      by_contra hne
      obtain ⟨j, hj, hshare⟩ := howner asked hasked hne
      exact hother (hj.trans (congrArg some (hundisputed j i hshare hi)))
  · have hnone : patchesOf (history.map Prod.snd) ledger.runs id = [] := by
      refine List.eq_nil_iff_forall_not_mem.mpr fun patch hmem => ?_
      obtain ⟨exchange, hexchange, hpatch⟩ := Transcript.mem_patchesOf.mp hmem
      obtain ⟨asked, hasked, rfl⟩ := List.mem_map.mp hexchange
      obtain ⟨i, -, hshare⟩ := howner asked hasked
        (List.ne_nil_of_mem (Transcript.mem_patchesOf.mpr ⟨_, List.mem_singleton_self _, hpatch⟩))
      exact hpatched ⟨i, hshare⟩
    rw [hnone]
    exact ⟨List.forall_mem_nil _, .nil⟩

end Several

namespace Engine

open Transcript (patchesOf share)

/-- The end of a run is final.  Whatever creates runs and executes them, and however it is
interleaved with itself and with what does not write to the runs, a record of a run that has ended
says when, and if it has failed, why.  Where no two calls have patched a record, it says nothing
else: a run has a moment of its end just when it has ended, and an error just when it has failed; and
once it has ended, its record is the only one of its identifier and stays as it is, however many
calls are performed then, as long as no other patches it. -/
theorem terminal_for_good (engine : Engine) {ι : Type} [DecidableEq ι] (calls : ι → Call)
    {store current : MemoryStore} {left : ι → Program (Except FlowError Run)}
    {history : List (Option ι × Exchange)}
    (hnames : engine.settings.ledger.runs ≠ engine.settings.ledger.steps)
    (hempty : store.records engine.settings.ledger.runs = [])
    (hspares : ∀ handler ∈ engine.registry.handlers, ∀ context,
      (handler.execute context).Spares engine.settings.ledger.runs)
    (hcalls : ∀ i, (calls i).Genuine)
    (h : Interleaved (fun i => engine.perform (calls i)) store left current history)
    (hasides : ∀ asked ∈ history, asked.1 = none →
      asked.2.action.written? ≠ some engine.settings.ledger.runs) :
    ∀ record ∈ current.records engine.settings.ledger.runs,
      ∃ (run : Run) (inputEvent : Json), record = run.stored inputEvent ∧ run.Explained ∧
        (Transcript.Undisputed engine.settings.ledger.runs history run.id →
          run.Coherent ∧
          (run.status.isTerminal = true →
            ∀ (left' : ι → Program (Except FlowError Run)) (current' : MemoryStore)
              (later : List (Option ι × Exchange)),
              Interleaved left current left' current' later →
              (∀ asked ∈ later, asked.1 = none →
                asked.2.action.written? ≠ some engine.settings.ledger.runs) →
              Transcript.Undisputed engine.settings.ledger.runs (history ++ later) run.id →
              (current'.records engine.settings.ledger.runs).filter (hasId run.id) = [record])) := by
  have horderly := orderly_share hnames hspares hcalls h
  intro record hrecord
  have hreplay := hrecord
  rw [h.keeps.replay, hempty] at hreplay
  obtain ⟨id, hgiven, hget⟩ := Transcript.Sharing.exists_given_of_mem hreplay
  have hself : hasId id record = true := by
    rw [hasId, hget]
    exact beq_self_eq_true id
  have hfree : (store.records engine.settings.ledger.runs).any (hasId id) = false := by
    rw [hempty]
    rfl
  rcases h.keeps.accounts hfree with ⟨members, hmembers, hfilter⟩ | ⟨hnew, -⟩
  swap
  · exact absurd hgiven hnew
  obtain ⟨hcreated, hpatches⟩ := told_of_orderly id horderly hasides
  obtain ⟨base, inputEvent, hbase, hopen, htoRecord⟩ := hcreated _ hmembers
  have hbase : ({ base with id } : Run).Coherent := ⟨hbase.finishedAt, hbase.error⟩
  have honly : (current.records engine.settings.ledger.runs).filter (hasId id) = [record] := by
    have hmem := List.mem_filter.mpr ⟨hrecord, hself⟩
    rw [hfilter, List.mem_singleton] at hmem
    rw [hfilter, hmem]
  have hlaid : record = Transcript.laid (({ base with id } : Run).stored inputEvent)
      (patchesOf (history.map Prod.snd) engine.settings.ledger.runs id) := by
    rw [← Run.withId_toRecord, htoRecord]
    exact (List.singleton_inj.mp (honly.symm.trans hfilter))
  by_cases hundisputed : Transcript.Undisputed engine.settings.ledger.runs history id
  · obtain ⟨run, hid, htold, hcoherent, hfinal⟩ :=
      (course_of_undisputed horderly hasides hundisputed).laid hbase hopen inputEvent
    obtain rfl : run.id = id := hid
    refine ⟨run, inputEvent, hlaid.trans htold, hcoherent.explained, fun _ => ⟨hcoherent, ?_⟩⟩
    intro hended left' current' later hlater hspared hstill
    have hall := orderly_share hnames hspares hcalls (h.trans hlater)
    have hcourse := course_of_undisputed hall
      (List.forall_mem_append.mpr ⟨hasides, hspared⟩) hstill
    rw [List.map_append, Transcript.patchesOf_append] at hcourse
    have hquiet := hfinal hended _ hcourse
    rw [hlater.keeps.filter_of_unpatched (List.any_eq_true.mpr ⟨record, hrecord, hself⟩) hquiet]
    exact honly
  · obtain ⟨run, hid, htold, hexplained⟩ :=
      Run.laid_explained hpatches hbase.explained inputEvent
    obtain rfl : run.id = id := hid
    exact ⟨run, inputEvent, hlaid.trans htold, hexplained, fun hclear => absurd hclear hundisputed⟩

/-! ### A run that is executed once, and one that is executed twice -/

/-- A run that is executed to its end, and one that is created. -/
def once : Bool → Call
  | true => .run fadingStart
  | false => .create fadingStart

theorem undisputed_once {left : Bool → Program (Except FlowError Run)}
    {store current : MemoryStore} {history : List (Option Bool × Exchange)}
    (h : Interleaved (fun i => perform Executor.fading (once i)) store left current history)
    (collection id : String) : Transcript.Undisputed collection history id := by
  have hcreated : patchesOf (share history false) collection id = [] := by
    obtain ⟨rest, outcome, hleads⟩ := h.begun false
    have hnone : patchesOf (share history false ++ rest) collection id = [] := by
      generalize share history false ++ rest = all at hleads
      cases Program.leads_createRun hleads with
      | refused => rfl
      | unnamed => rfl
      | named _ _ _ hnothing =>
          rw [hnothing.1]
          rfl
    rw [Transcript.patchesOf_append] at hnone
    exact (List.append_eq_nil_iff.mp hnone).1
  have howner : ∀ i, patchesOf (share history i) collection id ≠ [] → i = true := by
    intro i hi
    cases i with
    | true => rfl
    | false => exact absurd hcreated hi
  exact fun i j hi hj => (howner i hi).trans (howner j hj).symm

/-- A run fails, and another is created: the record of the first stays as it is. -/
theorem terminal_for_good_once :
    ∃ (left left' : Bool → Program (Except FlowError Run)) (current current' : MemoryStore)
        (history later : List (Option Bool × Exchange)) (run : Run) (inputEvent : Json),
      Interleaved (fun i => perform Executor.fading (once i)) {} left current history ∧
      Interleaved left current left' current' later ∧
      current.records "runs" = [run.stored inputEvent] ∧ run.status = .failed ∧ run.Coherent ∧
      (current'.records "runs").length = 2 ∧
      (current'.records "runs").filter (hasId run.id) = [run.stored inputEvent] := by
  let programs : Bool → Program (Except FlowError Run) :=
    fun i => perform Executor.fading (once i)
  let ended := (programs true).runWith MemoryStore.answer {}
  let left := Function.update programs true (.done ended.1)
  have hstart : Interleaved programs {} programs {} [] := .start
  have hagain : Interleaved left ended.2 left ended.2 [] := .start
  obtain ⟨t, -, hended⟩ := hstart.finish (i := true) rfl
  obtain ⟨t', -, hlater⟩ := hagain.finish (i := false) rfl
  have hone : (ended.2.records "runs").length = 1 := by decide +kernel
  obtain ⟨record, hrecord⟩ := List.length_eq_one_iff.mp hone
  have hfailed : (ended.2.records "runs").map (Json.get? "status") =
      [some (.string "failed")] := rfl
  have hasides := Transcript.owned_append
    (List.forall_mem_nil (fun asked : Option Bool × Exchange => asked.1 ≠ none)) true t
  have hasides' := Transcript.owned_append
    (List.forall_mem_nil (fun asked : Option Bool × Exchange => asked.1 ≠ none)) false t'
  obtain ⟨run, inputEvent, rfl, -, hsettled⟩ := terminal_for_good Executor.fading once (by decide)
    rfl (fading_spares _) (fun i => by cases i <;> trivial) hended
    (fun asked hasked hnone => absurd hnone (hasides asked hasked)) record
    (hrecord ▸ List.mem_singleton_self record)
  obtain ⟨hcoherent, hfinal⟩ := hsettled (undisputed_once hended "runs" run.id)
  have hstatus : run.status = .failed := by
    rw [hrecord, List.map_singleton, Run.get?_stored, if_neg (by decide)] at hfailed
    have htext : run.status.text = "failed" := Json.string.inj (Option.some.inj
      (List.singleton_inj.mp hfailed))
    revert htext
    cases run.status <;> decide
  refine ⟨left, _, ended.2, _, _, _, run, inputEvent, hended, hlater, hrecord, hstatus, hcoherent,
    by decide +kernel, ?_⟩
  exact hfinal (by rw [hstatus]; rfl) _ _ _ hlater
    (fun asked hasked hnone => absurd hnone (hasides' asked hasked))
    (undisputed_once (hended.trans hlater) "runs" run.id)

def bareTrigger : Flow :=
  { id := "g", name := "g", canvas := { nodes := [⟨"t", "trigger.manual", []⟩] } }

def firstQueued : Run := { Run.queued "f" .manual false ⟨0, 0⟩ with id := "<id:1>" }

theorem coherent_firstQueued : firstQueued.Coherent := ⟨by decide, by decide⟩

/-- A run is created, and executed once for a flow that fails and once for one that does not. -/
def twice : Fin 3 → Call
  | 0 => .create fadingStart
  | 1 => .execute firstQueued Executor.fadingLine .null
  | 2 => .execute firstQueued bareTrigger .null

/-- A run that has failed is made a success, and keeps its error. -/
theorem not_terminal_twice :
    ∃ (left left' : Fin 3 → Program (Except FlowError Run)) (current current' : MemoryStore)
        (history later : List (Option (Fin 3) × Exchange)) (failed : Run),
      (∀ i, (twice i).Genuine) ∧
      Interleaved (fun i => perform Executor.fading (twice i)) {} left current history ∧
      Interleaved left current left' current' later ∧
      (∀ asked ∈ history, asked.1 ≠ none) ∧ (∀ asked ∈ later, asked.1 ≠ none) ∧
      left 0 = .done (.ok firstQueued) ∧
      (current.records "runs").map Run.ofRecord? = [some failed] ∧ failed.status = .failed ∧
      (current'.records "runs").map Run.ofRecord? = [some { failed with status := .success }] ∧
      failed.error.isSome = true := by
  let programs : Fin 3 → Program (Except FlowError Run) :=
    fun i => perform Executor.fading (twice i)
  let created := (programs 0).runWith MemoryStore.answer {}
  let failed := (programs 1).runWith MemoryStore.answer created.2
  let left := Function.update (Function.update programs 0 (.done created.1)) 1 (.done failed.1)
  have hstart : Interleaved programs {} programs {} [] := .start
  have hagain : Interleaved left failed.2 left failed.2 [] := .start
  obtain ⟨t, -, hcreated⟩ := hstart.finish (i := 0) rfl
  obtain ⟨t', -, hfailed⟩ := hcreated.finish (i := 1) rfl
  obtain ⟨t'', -, hlater⟩ := hagain.finish (i := 2) rfl
  refine ⟨left, _, failed.2, _, _, _,
    { firstQueued with
      status := .failed
      finishedAt := some ⟨0, 0⟩
      error := some NodeError.missingRecipient.message },
    ?_, hfailed, hlater, ?_, ?_, rfl, by decide +kernel, rfl, by decide +kernel, rfl⟩
  · intro i
    match i with
    | 0 => trivial
    | 1 => exact fun _ => coherent_firstQueued
    | 2 => exact fun _ => coherent_firstQueued
  · exact Transcript.owned_append (Transcript.owned_append (List.forall_mem_nil _) 0 t) 1 t'
  · exact Transcript.owned_append (List.forall_mem_nil _) 2 t''

end Engine

end FlowEngine
