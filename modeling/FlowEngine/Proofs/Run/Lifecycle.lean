import FlowEngine.Proofs.Execution.Terminal
/-!
# `FlowEngine.Proofs.Run.Lifecycle` — the life of a run and of a step, call by call

A run is started and then ends, as a success or failed; a step is completed.  Whoever holds one may
call any of this at any time and in any order, by any clock.  A call that does not fit is refused, and
the run is then what it was before.

`Run.start`, `Run.succeed` and `Run.fail` give the run that comes of a call, or the refusal.  Here the
calls are also written as changes to a run where it stands, one assignment after the other
(`Run.Call.inPlace`): what a refused call has assigned by then would stay.  The two are the same
(`Run.Call.made_eq`), so nothing has been assigned by then.

What a call does to a run is said once (`Run.Call.made_cases`).  What calls in a row keep follows from
it by induction (`Run.Lived.after`), and so does how many of them can come through
(`Run.Call.accepted_add_callsLeft_le`).
-/

namespace FlowEngine

/-- How many steps of its life a run of this status has ahead. -/
def RunStatus.callsLeft : RunStatus → Nat
  | queued => 2
  | running => 1
  | _ => 0

namespace Run

/-! ## Changes to a run where it stands -/

/-- A change to a run where it stands.  An error undoes nothing. -/
abbrev Change := ExceptT InvalidTransition (StateM Run) Unit

/-- What a change to a run is answered with, and what the run is then. -/
def Change.on (change : Change) (run : Run) : Except InvalidTransition Unit × Run :=
  change.run.run run

/-- Take on a status, if the run may. -/
def enter (target : RunStatus) : Change := do
  let run ← get
  if run.status.mayBecome target then set { run with status := target }
  else throw ⟨run.status, target⟩

variable {run next origin : Run} {wanted : RunStatus} {e : InvalidTransition}

theorem on_enter (wanted : RunStatus) (run : Run) :
    (enter wanted).on run =
      Change.on (if run.status.mayBecome wanted then set { run with status := wanted }
        else throw ⟨run.status, wanted⟩) run := rfl

theorem on_enter_of_mayBecome (h : run.status.mayBecome wanted = true) :
    (enter wanted).on run = (.ok (), { run with status := wanted }) := by
  rw [on_enter, if_pos h]
  rfl

theorem on_enter_of_not_mayBecome (h : run.status.mayBecome wanted = false) :
    (enter wanted).on run = (.error ⟨run.status, wanted⟩, run) := by
  rw [on_enter, h]
  rfl

/-- The second of two changes meets the run that the first one leaves, unless that is refused. -/
theorem on_seq (first more : Change) (run : Run) :
    Change.on (do first; more) run =
      ExceptT.bindCont (fun _ => more) (first.on run).1 (first.on run).2 := rfl

theorem on_seq_of_ok {first more : Change} (h : first.on run = (.ok (), next)) :
    Change.on (do first; more) run = more.on next := by
  rw [on_seq, h]
  rfl

theorem on_seq_of_error {first more : Change} (h : first.on run = (.error e, next)) :
    Change.on (do first; more) run = (.error e, next) := by
  rw [on_seq, h]
  rfl

/-! ## Calls -/

/-- A call of one of the operations on a run. -/
inductive Call where
  | start
  | succeed (moment : Timestamp)
  | fail (error : String) (moment : Timestamp)
deriving DecidableEq, Repr

namespace Call

def target : Call → RunStatus
  | start => .running
  | succeed _ => .success
  | fail _ _ => .failed

def answer (run : Run) : Call → Except InvalidTransition Run
  | start => run.start
  | succeed moment => run.succeed moment
  | fail error moment => run.fail error moment

/-- The call as a change to a run where it stands. -/
def inPlace : Call → Change
  | start => enter .running
  | succeed moment => do
    enter .success
    modify fun run => { run with finishedAt := some (moment.latest run.startedAt) }
  | fail error moment => do
    enter .failed
    modify fun run => { run with finishedAt := some (moment.latest run.startedAt) }
    modify fun run => { run with error := some error }

/-- What a call on a run is answered with, and what the run is then. -/
def made (run : Run) (call : Call) : Except InvalidTransition Unit × Run := call.inPlace.on run

def after (run : Run) (calls : List Call) : Run := calls.foldl (fun run call => (made run call).2) run

/-- How many of the calls in a row come through. -/
def accepted (run : Run) : List Call → Nat
  | [] => 0
  | call :: calls => (if (made run call).1.toBool then 1 else 0) + accepted (made run call).2 calls

/-- What an operation that gives a new run, or refuses, does to a run where it stands: a refusal
changes nothing. -/
def settled (run : Run) : Except InvalidTransition Run → Except InvalidTransition Unit × Run
  | .ok next => (.ok (), next)
  | .error e => (.error e, run)

/-- One step in the life of a run. -/
inductive Goes : Run → Run → Prop where
  | started {run : Run} : run.status = .queued → Goes run run.running
  | ended {run : Run} (moment : Timestamp) (error : Option String) : run.status = .running →
      Goes run (run.ended moment error)

theorem Goes.callsLeft (h : Goes run next) :
    next.status.callsLeft + 1 = run.status.callsLeft := by
  cases h with
  | started hqueued =>
      rw [hqueued]
      rfl
  | ended moment error hrunning =>
      rw [hrunning]
      cases error <;> rfl

variable {call : Call}

theorem status_of_mayBecome_running (h : run.status.mayBecome .running = true) :
    run.status = .queued := by
  revert h
  cases run.status <;> decide

theorem status_of_mayBecome_terminal (hterminal : wanted.isTerminal = true)
    (h : run.status.mayBecome wanted = true) : run.status = .running := by
  revert h hterminal
  cases run.status <;> cases wanted <;> decide

theorem transition_of_mayBecome (h : run.status.mayBecome wanted = true) :
    run.transition wanted = .ok { run with status := wanted } := by
  rw [Run.transition, if_pos h]

theorem transition_of_not_mayBecome (h : run.status.mayBecome wanted = false) :
    run.transition wanted = .error ⟨run.status, wanted⟩ := by
  rw [Run.transition, h]
  rfl

/-- A call that asks for too much is refused, and nothing has been done by then. -/
theorem made_of_not_mayBecome (h : run.status.mayBecome call.target = false) :
    made run call = (.error ⟨run.status, call.target⟩, run) ∧
      call.answer run = .error ⟨run.status, call.target⟩ := by
  have henter := on_enter_of_not_mayBecome h
  cases call with
  | start => exact ⟨henter, transition_of_not_mayBecome h⟩
  | succeed moment =>
      change run.status.mayBecome .success = false at h
      refine ⟨on_seq_of_error henter, ?_⟩
      rw [answer, Run.succeed, transition_of_not_mayBecome h]
      rfl
  | fail error moment =>
      change run.status.mayBecome .failed = false at h
      refine ⟨on_seq_of_error henter, ?_⟩
      rw [answer, Run.fail, transition_of_not_mayBecome h]
      rfl

theorem made_of_mayBecome (h : run.status.mayBecome call.target = true) :
    ∃ next, made run call = (.ok (), next) ∧ call.answer run = .ok next ∧ Goes run next := by
  have henter := on_enter_of_mayBecome h
  cases call with
  | start =>
      exact ⟨_, henter, transition_of_mayBecome h, .started (status_of_mayBecome_running h)⟩
  | succeed moment =>
      change run.status.mayBecome .success = true at h
      refine ⟨run.ended moment none, on_seq_of_ok henter, ?_,
        .ended moment none (status_of_mayBecome_terminal rfl h)⟩
      rw [answer, Run.succeed, transition_of_mayBecome h]
      rfl
  | fail error moment =>
      change run.status.mayBecome .failed = true at h
      refine ⟨run.ended moment (some error), on_seq_of_ok henter, ?_,
        .ended moment (some error) (status_of_mayBecome_terminal rfl h)⟩
      rw [answer, Run.fail, transition_of_mayBecome h]
      rfl

/-- What a call can do: it is refused and the run stays, or the run goes one step on. -/
theorem made_cases (run : Run) (call : Call) :
    made run call = (.error ⟨run.status, call.target⟩, run) ∨
      ∃ next, made run call = (.ok (), next) ∧ Goes run next := by
  cases h : run.status.mayBecome call.target with
  | false => exact Or.inl (made_of_not_mayBecome h).1
  | true =>
      obtain ⟨next, hmade, -, hgoes⟩ := made_of_mayBecome h
      exact Or.inr ⟨next, hmade, hgoes⟩

/-- Where it stands, a run becomes what the operation gives, and stays what it is if that refuses. -/
theorem made_eq (run : Run) (call : Call) : made run call = settled run (call.answer run) := by
  cases h : run.status.mayBecome call.target with
  | false =>
      obtain ⟨hmade, hanswer⟩ := made_of_not_mayBecome h
      rw [hmade, hanswer]
      rfl
  | true =>
      obtain ⟨next, hmade, hanswer, -⟩ := made_of_mayBecome h
      rw [hmade, hanswer]
      rfl

/-- A call that is refused leaves the run exactly as it was, and names the status that the run has
and the one asked for. -/
def NamesRefusal (run : Run) (call : Call) : Prop :=
  ∀ (e : InvalidTransition), (made run call).1 = .error e →
    (made run call).2 = run ∧ e.origin = run.status ∧ e.target = call.target

theorem namesRefusal (run : Run) (call : Call) : call.NamesRefusal run := by
  intro e he
  rcases made_cases run call with hmade | ⟨next, hmade, -⟩
  · rw [hmade] at he ⊢
    obtain rfl := Except.error.inj he
    exact ⟨rfl, rfl, rfl⟩
  · rw [hmade] at he
    cases he

end Call

/-! ## Calls in a row -/

/-- A run that has become of another by calls: it is coherent, it has not ended before it was queued,
and what it is a run of has not changed. -/
structure Lived (origin run : Run) : Prop extends run.Coherent where
  ordered : ∀ finish ∈ run.finishedAt, run.startedAt.notAfter finish = true
  id : run.id = origin.id
  flowId : run.flowId = origin.flowId
  triggerType : run.triggerType = origin.triggerType
  startedAt : run.startedAt = origin.startedAt
  testMode : run.testMode = origin.testMode

theorem Lived.goes (h : Lived origin run) (hgoes : Call.Goes run next) : Lived origin next := by
  cases hgoes with
  | started hqueued =>
      exact { h.toCoherent.running hqueued, h with }
  | ended moment error hrunning =>
      have hopen : run.status.isTerminal = false := by
        rw [hrunning]
        rfl
      have hordered : ∀ finish ∈ (run.ended moment error).finishedAt,
          run.startedAt.notAfter finish = true := by
        intro finish hfinish
        obtain rfl := Option.some.inj hfinish
        exact Timestamp.notAfter_latest moment run.startedAt
      exact { (h.toCoherent.ended hopen moment error).1, h with ordered := hordered }

/-- Whatever is called, in whatever order. -/
theorem Lived.after (h : Lived origin run) (calls : List Call) :
    Lived origin (Call.after run calls) := by
  induction calls generalizing run with
  | nil => exact h
  | cons call calls ih =>
      rw [Call.after, List.foldl_cons, ← Call.after]
      rcases Call.made_cases run call with hmade | ⟨next, hmade, hgoes⟩
      · rw [hmade]
        exact ih h
      · rw [hmade]
        exact ih (h.goes hgoes)

namespace Call

/-- A call that comes through takes one step of the run's life, so no more of them do than there are
steps ahead. -/
theorem accepted_add_callsLeft_le (run : Run) (calls : List Call) :
    accepted run calls + (after run calls).status.callsLeft ≤ run.status.callsLeft := by
  induction calls generalizing run with
  | nil => exact Nat.le_of_eq (Nat.zero_add _)
  | cons call calls ih =>
      rw [accepted, after, List.foldl_cons, ← after]
      rcases made_cases run call with hmade | ⟨next, hmade, hgoes⟩
      · rw [hmade]
        simpa [Except.toBool] using ih run
      · have hnext := ih next
        have hstep := hgoes.callsLeft
        rw [hmade]
        simp only [Except.toBool, if_true]
        omega

end Call

end Run

/-! ## Steps -/

namespace RunStep

/-- What a step is completed with. -/
structure Completion where
  output : Option Json
  error : Option String
  moment : Timestamp

def completed (step : RunStep) (completions : List Completion) : RunStep :=
  completions.foldl (fun step c => step.complete c.output c.error c.moment) step

/-- A step has an error exactly if it is failed, and has not ended before it began. -/
structure Coherent (step : RunStep) : Prop where
  error : step.error.isSome = true ↔ step.status = .failed
  ordered : ∀ finish ∈ step.finishedAt, step.startedAt.notAfter finish = true

theorem coherent_complete (step : RunStep) (output : Option Json) (error : Option String)
    (moment : Timestamp) : (step.complete output error moment).Coherent := by
  constructor
  · cases error <;> simp [complete]
  · intro finish hfinish
    obtain rfl := Option.some.inj hfinish
    exact Timestamp.notAfter_latest moment step.startedAt

theorem coherent_begin (runId nodeId nodeType : String) (input : Option Json)
    (moment : Timestamp) : (begin_ runId nodeId nodeType input moment).Coherent :=
  ⟨by simp [begin_], fun _ h => by cases h⟩

theorem Coherent.completed {step : RunStep} (h : step.Coherent) (completions : List Completion) :
    (step.completed completions).Coherent := by
  induction completions generalizing step with
  | nil => exact h
  | cons c completions ih => exact ih (coherent_complete step c.output c.error c.moment)

end RunStep

namespace Run

/-- Calls in a row on a queued run, by any clock.  Whatever is called, the run has an end exactly if
it is terminal and an error exactly if it is failed, its end is not before its beginning, and what it
is a run of stays; a refused call leaves it as it was and names the two statuses; and no more than
two calls ever come through.  Whatever a step is completed with, it has an error exactly if it is
failed, and its end is not before its beginning. -/
theorem lifecycle (id flowId : String) (triggerType : TriggerType) (testMode : Bool)
    (moment : Timestamp) (calls : List Call) :
    let origin : Run := { queued flowId triggerType testMode moment with id }
    let run := Call.after origin calls
    Lived origin run ∧
    (∀ call : Call, Call.made run call = Call.settled run (call.answer run)) ∧
    (∀ call : Call, call.NamesRefusal run) ∧
    Call.accepted origin calls ≤ 2 ∧
    (∀ (step : RunStep) (completions : List RunStep.Completion) (c : RunStep.Completion),
      (step.completed (completions ++ [c])).Coherent ∧
        (step.completed (completions ++ [c])).finishedAt.isSome = true) ∧
    ∀ (runId nodeId nodeType : String) (input : Option Json)
      (completions : List RunStep.Completion),
      ((RunStep.begin_ runId nodeId nodeType input moment).completed completions).Coherent := by
  intro origin run
  have horigin : Lived origin origin :=
    { coherent_queued flowId triggerType testMode moment with
      ordered := fun _ h => by cases h
      id := rfl, flowId := rfl, triggerType := rfl, startedAt := rfl, testMode := rfl }
  refine ⟨horigin.after calls, Call.made_eq run, Call.namesRefusal run, ?_, ?_, ?_⟩
  · exact Nat.le_trans (Nat.le_add_right _ _) (Call.accepted_add_callsLeft_le origin calls)
  · intro step completions c
    rw [RunStep.completed, List.foldl_append, ← RunStep.completed]
    exact ⟨RunStep.coherent_complete _ c.output c.error c.moment, rfl⟩
  · intro runId nodeId nodeType input completions
    exact (RunStep.coherent_begin runId nodeId nodeType input moment).completed completions

/-- A second start and a failure behind a success do not come through. -/
example : Call.accepted (queued "f1" .manual false ⟨0, 0⟩)
    [.start, .start, .succeed ⟨5, 0⟩, .fail "late" ⟨9, 0⟩] = 2 := by
  decide

end Run

end FlowEngine
