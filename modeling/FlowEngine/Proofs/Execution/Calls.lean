import FlowEngine.Proofs.Execution.Archive
import FlowEngine.Proofs.Store.Sharing
/-!
# `FlowEngine.Proofs.Execution.Calls` — what a run writes to the ledger

A run patches its record as it starts and as it ends (`Chronicle.calls`), and between that it creates
the record of each step and patches it (`Visit.calls`).  That is all it writes to the ledger if the
handlers leave the ledger alone.  If none of these calls is turned away, they make of the records
that were created what is reported of the run and its steps: each record is the last of its
collection among those of the run, so a patch meets it.
-/

namespace FlowEngine

open MemoryStore (hasId)

/-! ## Records that are created -/

namespace Exchange

variable {collection id : String} {data : Json} {created : Except StoreError Json}

theorem created?_of_recordId (hdata : data.IsRecord)
    (h : created.bind (Json.recordId collection) = .ok id) :
    ∃ members, data = .object members ∧
      Exchange.created? collection ⟨.create collection data, created⟩ = some (id, members) := by
  obtain ⟨members, rfl, -⟩ := hdata
  refine ⟨members, rfl, ?_⟩
  cases created with
  | error e => cases h
  | ok record =>
      rw [Except.bind, Json.recordId] at h
      split at h
      · next name hname =>
          obtain rfl := Except.ok.inj h
          rw [created?, if_pos rfl, hname]
          rfl
      · cases h

theorem recordId_of_taken (hdata : data.IsRecord)
    (h : (Exchange.touched? collection ⟨.create collection data, created⟩).isSome) :
    ∃ id, created.bind (Json.recordId collection) = .ok id := by
  obtain ⟨id, hid⟩ := Option.isSome_iff_exists.mp h
  rcases touched?_cases hid with ⟨members, hcreated⟩ | ⟨patch, hpatched⟩
  · refine ⟨id, ?_⟩
    obtain ⟨others, rfl, -⟩ := hdata
    cases created with
    | error e => cases hcreated
    | ok record =>
        rw [created?, if_pos rfl] at hcreated
        obtain ⟨name, hname, hpair⟩ := Option.map_eq_some_iff.mp hcreated
        obtain ⟨value, hvalue, htext⟩ := Option.bind_eq_some_iff.mp hname
        rw [Except.bind, Json.recordId, hvalue]
        cases value with
        | string text =>
            obtain rfl := Option.some.inj htext
            obtain ⟨rfl, -⟩ := Prod.mk.inj hpair
            rfl
        | _ => cases htext
  · cases action_of_patched hpatched

/-- A patch that was taken is laid over the record of its identifier, which stands last. -/
theorem amend_of_taken {saved : Except StoreError Json} {records : List Json} {record : Json}
    (h : (Exchange.touched? collection ⟨.update collection id data, saved⟩).isSome)
    (hnew : records.any (hasId id) = false) (hrecord : hasId id record = true) :
    ∃ patch, data = .object patch ∧
      amend collection ⟨.update collection id data, saved⟩ (records ++ [record]) =
        records ++ [MemoryStore.overlay patch record] := by
  obtain ⟨name, hname⟩ := Option.isSome_iff_exists.mp h
  rcases touched?_cases hname with ⟨members, hcreated⟩ | ⟨patch, hpatched⟩
  · cases action_of_created hcreated
  · obtain ⟨-, rfl, rfl⟩ := Action.update.inj (action_of_patched hpatched)
    refine ⟨patch, rfl, ?_⟩
    rw [amend_of_patched hpatched, changeFirst_append_of_none hnew, changeFirst_cons,
      if_pos hrecord]

end Exchange

/-! ## At one node -/

namespace Visit

variable {executor : Executor} {run : Run} {visit : Visit} {visits : List Visit}
  {own : List String} {records : List Json}

/-- The calls that keep the step of a visit: its record is created, and patched if it has an
identifier. -/
def calls (executor : Executor) (run : Run) (visit : Visit) : Transcript :=
  ⟨.create executor.settings.ledger.steps (visit.begunStep run).toRecord, visit.created⟩ ::
    match visit.recordId executor with
    | .ok id => [⟨.update executor.settings.ledger.steps id (visit.step executor run).toPatch,
        visit.saved⟩]
    | .error _ => []

open Transcript (Minds given given_append replay replay_append writes writes_append writes_eq_nil)

theorem transcripts_saveLog : Entry.transcripts (visit.saveLog executor run) =
    match visit.recordId executor with
    | .ok id => [⟨.update executor.settings.ledger.steps id (visit.step executor run).toPatch,
        visit.saved⟩]
    | .error _ => [] := by
  rw [saveLog_eq]
  cases visit.recordId executor <;> rfl

theorem writes_log_runs (hnames : executor.settings.ledger.runs ≠ executor.settings.ledger.steps)
    (hwork : visit.IsWork executor run)
    (hspares : ∀ exchange ∈ visit.work,
      exchange.action.written? ≠ some executor.settings.ledger.runs) :
    writes executor.settings.ledger.runs (Entry.transcripts (visit.log executor run)) = [] := by
  have hother : some executor.settings.ledger.steps ≠ some executor.settings.ledger.runs :=
    fun heq => hnames (Option.some.inj heq).symm
  simp only [log, Entry.transcripts_append, Entry.transcripts_asked_cons, Entry.transcripts_nil,
    Program.transcripts_workLog hwork, transcripts_saveLog, writes_append, writes_eq_nil hspares]
  cases visit.recordId executor with
  | ok id => simp [writes, Action.written?, hother]
  | error e => simp [writes, Action.written?, hother]

theorem writes_log_steps (hwork : visit.IsWork executor run)
    (hspares : ∀ exchange ∈ visit.work,
      exchange.action.written? ≠ some executor.settings.ledger.steps) :
    writes executor.settings.ledger.steps (Entry.transcripts (visit.log executor run)) =
      visit.calls executor run := by
  simp only [log, calls, Entry.transcripts_append, Entry.transcripts_asked_cons,
    Entry.transcripts_nil, Program.transcripts_workLog hwork, transcripts_saveLog, writes_append,
    writes_eq_nil hspares]
  cases visit.recordId executor with
  | ok id => simp [writes, Action.written?]
  | error e => simp [writes, Action.written?]

theorem minds_calls : Minds executor.settings.ledger.steps own (visit.calls executor run) := by
  refine ⟨fun _ => ⟨(visit.begunStep run).isRecord_toRecord,
    (visit.begunStep run).get?_toRecord "id"⟩, ?_⟩
  cases hid : visit.recordId executor with
  | error e => trivial
  | ok id =>
      obtain ⟨members, -, hcreated⟩ :=
        Exchange.created?_of_recordId (visit.begunStep run).isRecord_toRecord hid
      refine ⟨fun _ => ⟨(visit.step executor run).isRecord_toPatch, ?_⟩, trivial⟩
      exact List.mem_append_right _ (Transcript.mem_given (List.mem_singleton_self _) hcreated)

/-- A creation that has given an identifier adds the step as it has begun. -/
theorem amend_begun {id : String} (hid : visit.recordId executor = .ok id) (records : List Json) :
    Exchange.amend executor.settings.ledger.steps
        ⟨.create executor.settings.ledger.steps (visit.begunStep run).toRecord, visit.created⟩
        records =
      records ++ [{ visit.begunStep run with id }.stored] := by
  obtain ⟨members, hmembers, hcreated⟩ :=
    Exchange.created?_of_recordId (visit.begunStep run).isRecord_toRecord hid
  rw [Exchange.amend_of_created hcreated, ← hmembers, RunStep.withId_toRecord]

/-- A patch that is taken makes of the step as it has begun the step as it has ended. -/
theorem amend_ended {id : String} (hid : visit.recordId executor = .ok id)
    (htaken : (Exchange.touched? executor.settings.ledger.steps
      ⟨.update executor.settings.ledger.steps id (visit.step executor run).toPatch,
        visit.saved⟩).isSome)
    (hnew : records.any (hasId id) = false) :
    Exchange.amend executor.settings.ledger.steps
        ⟨.update executor.settings.ledger.steps id (visit.step executor run).toPatch, visit.saved⟩
        (records ++ [{ visit.begunStep run with id }.stored]) =
      records ++ [(visit.step executor run).stored] := by
  have hself : hasId id { visit.begunStep run with id }.stored = true := by
    rw [RunStep.hasId_stored, beq_self_eq_true]
  obtain ⟨patch, hpatch, hamend⟩ := Exchange.amend_of_taken htaken hnew hself
  obtain ⟨others, hothers, hoverlay⟩ :=
    { visit.begunStep run with id }.overlay_stored (visit.step executor run)
  obtain rfl := Json.object.inj (hpatch.symm.trans hothers)
  rw [hamend, hoverlay, step_of_recordId run hid, RunStep.patched_close _ rfl rfl]

theorem given_calls {id : String} (hid : visit.recordId executor = .ok id) :
    given executor.settings.ledger.steps (visit.calls executor run) = [id] := by
  obtain ⟨members, -, hcreated⟩ :=
    Exchange.created?_of_recordId (visit.begunStep run).isRecord_toRecord hid
  rw [calls, hid, given, Transcript.created, List.filterMap_cons_some hcreated]
  rfl

/-- The step as the visit has begun it, under some identifier, or as the visit has ended it. -/
def IsStep (executor : Executor) (run : Run) (visit : Visit) (step : RunStep) : Prop :=
  (∃ id, step = { visit.begunStep run with id }) ∨ step = visit.step executor run

/-- Whatever the calls are answered, they add the step as it has begun or has ended, or nothing. -/
theorem replay_calls_cases
    (hnew : ∀ id ∈ given executor.settings.ledger.steps (visit.calls executor run),
      records.any (hasId id) = false) :
    replay executor.settings.ledger.steps (visit.calls executor run) records = records ∨
      ∃ step, visit.IsStep executor run step ∧
        replay executor.settings.ledger.steps (visit.calls executor run) records =
          records ++ [step.stored] := by
  cases hid : visit.recordId executor with
  | error e =>
      refine Or.inl ?_
      have huntouched : Exchange.touched? executor.settings.ledger.steps
          ⟨.create executor.settings.ledger.steps (visit.begunStep run).toRecord,
            visit.created⟩ = none := by
        refine Option.not_isSome_iff_eq_none.mp fun htaken => ?_
        obtain ⟨id, hsome⟩ :=
          Exchange.recordId_of_taken (visit.begunStep run).isRecord_toRecord htaken
        cases hid.symm.trans hsome
      rw [calls, hid, replay, List.foldl_cons, List.foldl_nil,
        Exchange.amend_of_untouched huntouched]
  | ok id =>
      rw [given_calls hid, List.forall_mem_singleton] at hnew
      rw [calls, hid, replay, List.foldl_cons, List.foldl_cons, List.foldl_nil, amend_begun hid]
      cases htouched : Exchange.touched? executor.settings.ledger.steps
          ⟨.update executor.settings.ledger.steps id (visit.step executor run).toPatch,
            visit.saved⟩ with
      | none =>
          refine Or.inr ⟨_, Or.inl ⟨id, rfl⟩, ?_⟩
          exact Exchange.amend_of_untouched htouched
      | some touched =>
          refine Or.inr ⟨_, Or.inr rfl, amend_ended hid ?_ hnew⟩
          rw [htouched]
          rfl

/-- Whatever the calls on a walk are answered, they add nothing but the steps of its visits, as they
have begun or have ended. -/
theorem mem_replay_flatMap_calls
    (hnew : ∀ id ∈ given executor.settings.ledger.steps (visits.flatMap (calls executor run)),
      records.any (hasId id) = false)
    (hdistinct : (given executor.settings.ledger.steps
      (visits.flatMap (calls executor run))).Nodup) {record : Json}
    (h : record ∈ replay executor.settings.ledger.steps (visits.flatMap (calls executor run))
      records) :
    record ∈ records ∨
      ∃ visit ∈ visits, ∃ step, visit.IsStep executor run step ∧ record = step.stored := by
  induction visits generalizing records with
  | nil => exact Or.inl h
  | cons visit later ih =>
      rw [List.flatMap_cons] at hnew hdistinct h
      rw [given_append, List.forall_mem_append] at hnew
      rw [given_append, List.nodup_append] at hdistinct
      obtain ⟨-, hdistinct, hapart⟩ := hdistinct
      rw [replay_append] at h
      have hnew' : ∀ id ∈ given executor.settings.ledger.steps
          (later.flatMap (calls executor run)),
          (replay executor.settings.ledger.steps (visit.calls executor run) records).any
            (hasId id) = false := by
        intro id hid
        refine Bool.eq_false_iff.mpr fun hused => ?_
        rcases Transcript.any_replay.mp hused with hold | hgiven
        · exact absurd hold (Bool.eq_false_iff.mp (hnew.2 id hid))
        · exact hapart id hgiven id hid rfl
      rcases ih hnew' hdistinct h with hearlier | ⟨other, hother, hstep⟩
      · rcases replay_calls_cases hnew.1 with hnone | ⟨step, hstep, hone⟩
        · exact Or.inl (hnone ▸ hearlier)
        · rw [hone, List.mem_append, List.mem_singleton] at hearlier
          rcases hearlier with hold | rfl
          · exact Or.inl hold
          · exact Or.inr ⟨visit, List.mem_cons_self, step, hstep, rfl⟩
      · exact Or.inr ⟨other, List.mem_cons_of_mem _ hother, hstep⟩

theorem minds_flatMap_calls : Minds executor.settings.ledger.steps own
    (visits.flatMap (calls executor run)) := by
  induction visits generalizing own with
  | nil => trivial
  | cons visit later ih =>
      rw [List.flatMap_cons, Transcript.minds_append]
      exact ⟨minds_calls, ih⟩

theorem writes_logs_runs (hnames : executor.settings.ledger.runs ≠ executor.settings.ledger.steps)
    (hwork : ∀ visit ∈ visits, visit.IsWork executor run)
    (hspares : ∀ visit ∈ visits, ∀ exchange ∈ visit.work,
      exchange.action.written? ≠ some executor.settings.ledger.runs) :
    writes executor.settings.ledger.runs (Entry.transcripts (logs executor run visits)) = [] := by
  induction visits with
  | nil => rfl
  | cons visit later ih =>
      obtain ⟨hvisit, hlater⟩ := List.forall_mem_cons.mp hwork
      obtain ⟨hspare, hspares⟩ := List.forall_mem_cons.mp hspares
      rw [transcripts_logs_cons, writes_append, writes_log_runs hnames hvisit hspare,
        ih hlater hspares]
      rfl

theorem writes_logs_steps (hwork : ∀ visit ∈ visits, visit.IsWork executor run)
    (hspares : ∀ visit ∈ visits, ∀ exchange ∈ visit.work,
      exchange.action.written? ≠ some executor.settings.ledger.steps) :
    writes executor.settings.ledger.steps (Entry.transcripts (logs executor run visits)) =
      visits.flatMap (calls executor run) := by
  induction visits with
  | nil => rfl
  | cons visit later ih =>
      obtain ⟨hvisit, hlater⟩ := List.forall_mem_cons.mp hwork
      obtain ⟨hspare, hspares⟩ := List.forall_mem_cons.mp hspares
      rw [transcripts_logs_cons, writes_append, writes_log_steps hvisit hspare, ih hlater hspares]
      rfl

end Visit

/-! ## In the course of a run -/

namespace Chronicle

variable {executor : Executor} {run : Run} {flow : Flow} {chronicle : Chronicle}
  {own : List String} {records : List Json} {input : Json}

open Transcript (Minds given replay writes writes_append)

/-- The calls that keep a run in the course of its execution: its record is patched as it starts and
as it ends. -/
def calls (executor : Executor) (run : Run) (chronicle : Chronicle) : Transcript :=
  [⟨.update executor.settings.ledger.runs run.id run.running.toPatch, chronicle.started⟩,
    ⟨.update executor.settings.ledger.runs run.id (chronicle.final run).toPatch,
      chronicle.finished⟩]

theorem writes_log_runs (hnames : executor.settings.ledger.runs ≠ executor.settings.ledger.steps)
    (hwork : ∀ visit ∈ chronicle.visits, visit.IsWork executor run.running)
    (hspares : ∀ visit ∈ chronicle.visits, ∀ exchange ∈ visit.work,
      exchange.action.written? ≠ some executor.settings.ledger.runs) :
    writes executor.settings.ledger.runs (Entry.transcripts (chronicle.log executor run flow)) =
      chronicle.calls executor run := by
  simp only [log, calls, Entry.transcripts_append, Entry.transcripts_asked_cons,
    Entry.transcripts_nil, writes_append, Visit.writes_logs_runs hnames hwork hspares]
  simp [writes, Action.written?]

/-- All that is written to the steps in the course of a run keeps its own. -/
theorem writes_log_steps (hnames : executor.settings.ledger.runs ≠ executor.settings.ledger.steps)
    (hwork : ∀ visit ∈ chronicle.visits, visit.IsWork executor run.running)
    (hspares : ∀ visit ∈ chronicle.visits, ∀ exchange ∈ visit.work,
      exchange.action.written? ≠ some executor.settings.ledger.steps) :
    writes executor.settings.ledger.steps (Entry.transcripts (chronicle.log executor run flow)) =
      chronicle.visits.flatMap (Visit.calls executor run.running) := by
  have hother : some executor.settings.ledger.runs ≠ some executor.settings.ledger.steps :=
    fun heq => hnames (Option.some.inj heq)
  simp only [log, Entry.transcripts_append, Entry.transcripts_asked_cons,
    Entry.transcripts_nil, writes_append, Visit.writes_logs_steps hwork hspares]
  simp [writes, Action.written?, hother]

/-- A run patches no record but its own. -/
theorem minds_calls (hown : run.id ∈ own) :
    Minds executor.settings.ledger.runs own (chronicle.calls executor run) := by
  refine ⟨fun _ => ⟨run.running.isRecord_toPatch, hown⟩, fun _ => ⟨?_, ?_⟩, trivial⟩
  · exact (chronicle.final run).isRecord_toPatch
  · exact List.mem_append_left _ hown

end Chronicle

end FlowEngine
