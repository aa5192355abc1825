import FlowEngine.Engine
import FlowEngine.Proofs.Transcript
/-!
# `FlowEngine.Proofs.Execution.Starting` — all that starting a run can be

A run is stored before it is executed, and executed under the identifier that the store has given
it. What comes of starting one hangs on two things: on the flow, which may be archived, and on the
answer to the creation of the record.
-/

namespace FlowEngine

/-- The flow takes test runs only, and this is none. -/
def Flow.Refuses (flow : Flow) (testMode : Bool) : Prop :=
  flow.status = .archived ∧ testMode = false

/-- All that can come of the start of a run.  It is refused without a word to the world; or a record
of it is created, and it goes on under the identifier of the record if the store has given one. -/
inductive Engine.Begun {α : Type} (engine : Engine) (flow : Flow) (triggerType : TriggerType)
    (input : Json) (testMode : Bool) (GoesOn : Run → Transcript → Except FlowError α → Prop) :
    Transcript → Except FlowError α → Prop where
  | refused : flow.Refuses testMode →
      engine.Begun flow triggerType input testMode GoesOn [] (.error (.flowArchived flow.id))
  | unnamed {run : Run} {created : Except StoreError Json} {e : StoreError} :
      ¬ flow.Refuses testMode →
      run = .queued flow.id triggerType testMode run.startedAt →
      created.bind (Json.recordId engine.settings.ledger.runs) = .error e →
      engine.Begun flow triggerType input testMode GoesOn
        [⟨.now, run.startedAt⟩,
          ⟨.create engine.settings.ledger.runs (run.toRecord input), created⟩]
        (.error (.store e))
  | named {run : Run} {created : Except StoreError Json} {id : String} {rest : Transcript}
      {outcome : Except FlowError α} :
      ¬ flow.Refuses testMode →
      run = .queued flow.id triggerType testMode run.startedAt →
      created.bind (Json.recordId engine.settings.ledger.runs) = .ok id →
      GoesOn { run with id } rest outcome →
      engine.Begun flow triggerType input testMode GoesOn
        (⟨.now, run.startedAt⟩ ::
          ⟨.create engine.settings.ledger.runs (run.toRecord input), created⟩ :: rest)
        outcome

namespace Engine.Begun

variable {engine : Engine} {flow : Flow} {triggerType : TriggerType} {input : Json}
  {testMode : Bool} {t : Transcript} {α β : Type}
  {GoesOn : Run → Transcript → Except FlowError α → Prop} {outcome : Except FlowError α}

theorem imp {GoesOn' : Run → Transcript → Except FlowError α → Prop}
    (h : engine.Begun flow triggerType input testMode GoesOn t outcome)
    (himp : ∀ run : Run, run.status = .queued → ∀ rest outcome,
      GoesOn run rest outcome → GoesOn' run rest outcome) :
    engine.Begun flow triggerType input testMode GoesOn' t outcome := by
  cases h with
  | refused hrefuses => exact .refused hrefuses
  | unnamed haccepts hrun hid => exact .unnamed haccepts hrun hid
  | @named run _ id _ _ haccepts hrun hid hrest =>
      have hstatus : ({ run with id } : Run).status = .queued := congrArg Run.status hrun
      exact .named haccepts hrun hid (himp _ hstatus _ _ hrest)

theorem bind {start : Program (Except FlowError α)}
    {next : Except FlowError α → Program (Except FlowError β)} {outcome : Except FlowError β}
    (h : (start >>= next).Leads t outcome)
    (hstart : ∀ {first begun}, start.Leads first begun →
      engine.Begun flow triggerType input testMode GoesOn first begun)
    (hnext : ∀ e, next (.error e) = pure (.error e)) :
    engine.Begun flow triggerType input testMode
      (fun run rest outcome => ∃ first last begun, rest = first ++ last ∧
        GoesOn run first begun ∧ (next begun).Leads last outcome) t outcome := by
  obtain ⟨first, last, begun, rfl, hfirst, hlast⟩ := Program.leads_bind.mp h
  cases hstart hfirst with
  | refused hrefuses =>
      rw [hnext] at hlast
      obtain ⟨rfl, rfl⟩ := Program.leads_pure.mp hlast
      exact .refused hrefuses
  | unnamed haccepts hrun hid =>
      rw [hnext] at hlast
      obtain ⟨rfl, rfl⟩ := Program.leads_pure.mp hlast
      exact .unnamed haccepts hrun hid
  | @named _ _ _ rest _ haccepts hrun hid hrest =>
      exact .named haccepts hrun hid ⟨rest, last, begun, rfl, hrest, hlast⟩

/-- A run that is refused comes to nothing else. -/
theorem refusal (h : engine.Begun flow triggerType input testMode GoesOn t outcome)
    (hrefuses : flow.Refuses testMode) :
    t = [] ∧ outcome = .error (.flowArchived flow.id) := by
  cases h with
  | refused => exact ⟨rfl, rfl⟩
  | unnamed haccepts => exact absurd hrefuses haccepts
  | named haccepts => exact absurd hrefuses haccepts

theorem created (h : engine.Begun flow triggerType input testMode GoesOn t outcome)
    (haccepts : ¬ flow.Refuses testMode) :
    ∃ (run : Run) (created : Except StoreError Json) (rest : Transcript),
      run = .queued flow.id triggerType testMode run.startedAt ∧
      t = ⟨.now, run.startedAt⟩ ::
        ⟨.create engine.settings.ledger.runs (run.toRecord input), created⟩ :: rest ∧
      ∀ id, created.bind (Json.recordId engine.settings.ledger.runs) = .ok id →
        GoesOn { run with id } rest outcome := by
  cases h with
  | refused hrefuses => exact absurd hrefuses haccepts
  | @unnamed run created e _ hrun hid =>
      refine ⟨run, created, [], hrun, rfl, ?_⟩
      intro id hnamed
      rw [hid] at hnamed
      cases hnamed
  | @named run created id rest _ _ hrun hid hrest =>
      refine ⟨run, created, rest, hrun, rfl, ?_⟩
      intro id' hnamed
      obtain rfl := Except.ok.inj (hid.symm.trans hnamed)
      exact hrest

end Engine.Begun

namespace Program

variable {engine : Engine} {flow : Flow} {triggerType : TriggerType} {input : Json}
  {testMode : Bool} {t : Transcript}

theorem leads_insertRun {ledger : Ledger} {run : Run} {stored : Except StoreError Run}
    (h : (ledger.insertRun run input).Leads t stored) :
    ∃ created, t = [⟨.create ledger.runs (run.toRecord input), created⟩] ∧
      stored = (created.bind (Json.recordId ledger.runs)).map fun id => { run with id } := by
  obtain ⟨created, rest, rfl, h₁⟩ := leads_perform_bind.mp h
  refine ⟨created, ?_⟩
  cases created with
  | error e =>
      obtain ⟨rfl, rfl⟩ := leads_pure.mp h₁
      exact ⟨rfl, rfl⟩
  | ok record =>
      simp only [Except.bind] at h₁ ⊢
      cases hid : Json.recordId ledger.runs record with
      | error e =>
          simp only [hid] at h₁
          obtain ⟨rfl, rfl⟩ := leads_pure.mp h₁
          exact ⟨rfl, rfl⟩
      | ok id =>
          simp only [hid] at h₁
          obtain ⟨rfl, rfl⟩ := leads_pure.mp h₁
          exact ⟨rfl, rfl⟩

theorem leads_createRun {stored : Except FlowError Run}
    (h : (engine.createRun flow triggerType input testMode).Leads t stored) :
    engine.Begun flow triggerType input testMode
      (fun run rest stored => rest = [] ∧ stored = .ok run) t stored := by
  unfold Engine.createRun at h
  by_cases hrefuses : flow.Refuses testMode
  · rw [if_pos (by simpa [Flow.Refuses] using hrefuses)] at h
    obtain ⟨rfl, rfl⟩ := leads_pure.mp h
    exact .refused hrefuses
  · rw [if_neg (by simpa [Flow.Refuses] using hrefuses)] at h
    obtain ⟨moment, t₁, rfl, h₁⟩ := leads_now_bind.mp h
    obtain ⟨t₂, t₃, answer, rfl, hinsert, h₂⟩ := leads_bind.mp h₁
    obtain ⟨created, rfl, rfl⟩ := leads_insertRun hinsert
    have hrun : Run.queued flow.id triggerType testMode moment =
        .queued flow.id triggerType testMode moment := rfl
    cases hid : created.bind (Json.recordId engine.settings.ledger.runs) with
    | error e =>
        rw [hid] at h₂
        obtain ⟨rfl, rfl⟩ := leads_pure.mp h₂
        exact .unnamed hrefuses hrun hid
    | ok id =>
        rw [hid] at h₂
        obtain ⟨rfl, rfl⟩ := leads_pure.mp h₂
        exact .named hrefuses hrun hid ⟨rfl, rfl⟩

/-- What is to be done with a run is done once it is created, under the identifier of its record. -/
theorem leads_createRun_bind {α : Type}
    {next : Except FlowError Run → Program (Except FlowError α)} {outcome : Except FlowError α}
    (h : (engine.createRun flow triggerType input testMode >>= next).Leads t outcome)
    (hnext : ∀ e, next (.error e) = pure (.error e)) :
    engine.Begun flow triggerType input testMode (fun run => (next (.ok run)).Leads) t outcome := by
  refine (Engine.Begun.bind h leads_createRun hnext).imp ?_
  rintro run - _ outcome ⟨_, last, _, rfl, ⟨rfl, rfl⟩, hlast⟩
  exact hlast

/-- A run whose record has been created is executed under the identifier of the record. -/
theorem leads_runFlow {outcome : Except FlowError RunReport}
    (h : (engine.runFlow flow triggerType input testMode).Leads t outcome) :
    engine.Begun flow triggerType input testMode
      (fun run => (engine.execute run flow input).Leads) t outcome :=
  leads_createRun_bind h fun _ => rfl

/-- A run that comes to a report has been created first and then executed. -/
theorem leads_runFlow_ok {report : RunReport}
    (h : (engine.runFlow flow triggerType input testMode).Leads t (.ok report)) :
    ∃ (before rest : Transcript) (run : Run), t = before ++ rest ∧
      (engine.createRun flow triggerType input testMode).Leads before (.ok run) ∧
      (engine.execute run flow input).Leads rest (.ok report) := by
  obtain ⟨before, rest, created, rfl, hcreate, hrest⟩ := leads_bind.mp h
  cases created with
  | error e => cases (leads_pure.mp hrest).2
  | ok run => exact ⟨before, rest, run, rfl, hcreate, hrest⟩

/-- A run that is started is stored, and goes on its way under the identifier of its record. -/
theorem leads_startRun {started : Except FlowError (Run × Nat)}
    (h : (engine.startRun flow triggerType input testMode).Leads t started) :
    engine.Begun flow triggerType input testMode
      (fun run rest started => ∃ task : Nat, rest = [⟨.dispatch run flow input, task⟩] ∧
        started = .ok (run, task)) t started := by
  refine (leads_createRun_bind h fun _ => rfl).imp ?_
  intro run _ rest started hrest
  obtain ⟨task, last, rfl, hlast⟩ := leads_perform_bind.mp hrest
  obtain ⟨rfl, rfl⟩ := leads_pure.mp hlast
  exact ⟨task, rfl, rfl⟩

end Program

end FlowEngine
