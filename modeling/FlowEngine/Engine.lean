import FlowEngine.Execution.Basic
/-!
# `FlowEngine.Engine` — starting and inspecting runs

The entry points for whoever wants a flow to run: the web interface, the schedule, the command line.
A run is always stored before it is executed.  Archived flows take test runs only.
-/

namespace FlowEngine

/-- The collections and policies of an engine, and the handlers that are at hand. -/
abbrev Engine := Executor

namespace Engine

def createRun (engine : Engine) (flow : Flow) (triggerType : TriggerType) (input : Json)
    (testMode : Bool) : Program (Except FlowError Run) := do
  if flow.status = .archived && !testMode then return .error (.flowArchived flow.id)
  else
    let run := Run.queued flow.id triggerType testMode (← Program.now)
    match ← engine.settings.ledger.insertRun run input with
    | .error e => return .error (.store e)
    | .ok run => return .ok run

/-- Store a run and execute it to its end. -/
def runFlow (engine : Engine) (flow : Flow) (triggerType : TriggerType) (input : Json)
    (testMode : Bool) : Program (Except FlowError RunReport) := do
  match ← createRun engine flow triggerType input testMode with
  | .error e => return .error e
  | .ok run => engine.execute run flow input

/-- Store a run and execute it in the background; the result is the queued run and the number of its
task. -/
def startRun (engine : Engine) (flow : Flow) (triggerType : TriggerType) (input : Json)
    (testMode : Bool) : Program (Except FlowError (Run × Nat)) := do
  match ← createRun engine flow triggerType input testMode with
  | .error e => return .error e
  | .ok run => return .ok (run, ← Program.dispatch run flow input)

def getRun (engine : Engine) (id : String) : Program (Except FlowError Run) :=
  engine.settings.ledger.getRun id

/-- The latest runs of a flow, the newest first. -/
def listRuns (engine : Engine) (flowId : String) : Program (Except FlowError (List Run)) := do
  match ← engine.settings.ledger.listRuns flowId with
  | .error e => return .error (.store e)
  | .ok runs => return .ok runs

def listRunSteps (engine : Engine) (runId : String) :
    Program (Except FlowError (List RunStep)) := do
  match ← engine.settings.ledger.listSteps runId with
  | .error e => return .error (.store e)
  | .ok steps => return .ok steps

end Engine

end FlowEngine
