import FlowEngine.Ledger.Record
import FlowEngine.Program
/-!
# `FlowEngine.Ledger.Basic` — runs and steps in the record store

The ledger is the record of what the engine has done: one collection of runs and one of steps.  A
record is created when a run is queued or a step begins, and patched when it goes on or ends.
-/

namespace FlowEngine

/-- The collections in which runs and steps are stored. -/
structure Ledger where
  runs : String := "runs"
  steps : String := "run_steps"
deriving DecidableEq, Repr

namespace Ledger

def runsPage : UInt32 := 50

def stepsPage : UInt32 := 200

def filterFor (field value : String) : String := field ++ " = \"" ++ value ++ "\""

/-- Store a new run; the result has the identifier that the store gives it. -/
def insertRun (ledger : Ledger) (run : Run) (inputEvent : Json) :
    Program (Except StoreError Run) := do
  match ← Program.create ledger.runs (run.toRecord inputEvent) with
  | .error e => return .error e
  | .ok created =>
    match Json.recordId ledger.runs created with
    | .error e => return .error e
    | .ok id => return .ok { run with id }

def saveRunStatus (ledger : Ledger) (run : Run) : Program (Except StoreError Unit) := do
  match ← Program.update ledger.runs run.id run.toPatch with
  | .error e => return .error e
  | .ok _ => return .ok ()

def getRun (ledger : Ledger) (id : String) : Program (Except FlowError Run) := do
  match ← Program.getOne ledger.runs id {} with
  | .error (.notFound _ _) => return .error (.runNotFound id)
  | .error e => return .error (.store e)
  | .ok record =>
    match Json.readRecord Run.ofRecord? ledger.runs record with
    | .error e => return .error (.store e)
    | .ok run => return .ok run

/-- The latest runs of a flow, the newest first. -/
def listRuns (ledger : Ledger) (flowId : String) : Program (Except StoreError (List Run)) := do
  let query : ListQuery :=
    { filter := some (filterFor "flow_id" flowId), sort := some "-started_at", limit := runsPage }
  match ← Program.list ledger.runs query with
  | .error e => return .error e
  | .ok page => return Json.readRecords Run.ofRecord? ledger.runs page.items

/-- Store a step that has begun; the result is the identifier that the store gives it. -/
def insertStep (ledger : Ledger) (step : RunStep) : Program (Except StoreError String) := do
  match ← Program.create ledger.steps step.toRecord with
  | .error e => return .error e
  | .ok created => return Json.recordId ledger.steps created

def saveStep (ledger : Ledger) (step : RunStep) : Program (Except StoreError Unit) := do
  match ← Program.update ledger.steps step.id step.toPatch with
  | .error e => return .error e
  | .ok _ => return .ok ()

/-- The first steps of a run in the order in which they began. -/
def listSteps (ledger : Ledger) (runId : String) : Program (Except StoreError (List RunStep)) := do
  let query : ListQuery :=
    { filter := some (filterFor "run_id" runId), sort := some "+started_at", limit := stepsPage }
  match ← Program.list ledger.steps query with
  | .error e => return .error e
  | .ok page => return Json.readRecords RunStep.ofRecord? ledger.steps page.items

/-! ## Keeping the record of one node

A store that fails must not change the outcome of a node: its errors are dropped, and a step whose
record could not be created is not patched either. -/

/-- A step that has begun, and whether it has a record. -/
structure OpenStep where
  step : RunStep
  persisted : Bool

def beginStep (ledger : Ledger) (runId nodeId nodeType : String) (input : Json) :
    Program OpenStep := do
  let step := RunStep.begin_ runId nodeId nodeType (snapshot input) (← Program.now)
  match ← ledger.insertStep step with
  | .ok id => return ⟨{ step with id }, true⟩
  | .error _ => return ⟨step, false⟩

def finishStep (ledger : Ledger) (opened : OpenStep) (result : Except NodeError Json) :
    Program RunStep := do
  let moment ← Program.now
  let step := match result with
    | .ok output => opened.step.complete (snapshot output) none moment
    | .error e => opened.step.complete none (some e.message) moment
  if opened.persisted then
    let _ ← ledger.saveStep step
  return step

end Ledger

end FlowEngine
