import FlowEngine.Json.Basic
import FlowEngine.Time.Timestamp
/-!
# `FlowEngine.Run.Basic` — runs and their steps

A run is one attempt to execute a flow.  It is queued, then running, then either a success or failed,
and it never leaves the last two; the moment it ends is never before the moment it was queued.  A
step is the record of one node's execution within a run; it is running until it is completed.
-/

namespace FlowEngine

/-- Where a run stands in its life. -/
inductive RunStatus where
  | queued
  | running
  | success
  | failed
deriving DecidableEq, Repr

namespace RunStatus

def text : RunStatus → String
  | queued => "queued"
  | running => "running"
  | success => "success"
  | failed => "failed"

def ofText? (s : String) : Option RunStatus :=
  if s = "queued" then some queued
  else if s = "running" then some running
  else if s = "success" then some success
  else if s = "failed" then some failed
  else none

/-- Every status, in the order of a run's life. -/
def all : List RunStatus := [queued, running, success, failed]

def isTerminal : RunStatus → Bool
  | success => true
  | failed => true
  | _ => false

/-- A run may go from one status to the other. -/
def mayBecome : RunStatus → RunStatus → Bool
  | queued, running => true
  | running, success => true
  | running, failed => true
  | _, _ => false

end RunStatus

/-- What a run was started by. -/
inductive TriggerType where
  | manual
  | cron
  | webhook
deriving DecidableEq, Repr

namespace TriggerType

def text : TriggerType → String
  | manual => "manual"
  | cron => "cron"
  | webhook => "webhook"

def ofText? (s : String) : Option TriggerType :=
  if s = "manual" then some manual
  else if s = "cron" then some cron
  else if s = "webhook" then some webhook
  else none

def parse (s : String) : Except String TriggerType :=
  match ofText? s with
  | some t => .ok t
  | none => .error ("unknown trigger type: " ++ s)

end TriggerType

/-- One attempt to execute a flow. -/
structure Run where
  id : String
  flowId : String
  status : RunStatus
  triggerType : TriggerType
  startedAt : Timestamp
  finishedAt : Option Timestamp := none
  error : Option String := none
  testMode : Bool
deriving DecidableEq, Repr

/-- A run cannot go from the status it has to the one asked for. -/
structure InvalidTransition where
  origin : RunStatus
  target : RunStatus
deriving DecidableEq, Repr

namespace Run

/-- A new run that the store has not yet given an identifier. -/
def queued (flowId : String) (triggerType : TriggerType) (testMode : Bool) (at_ : Timestamp) :
    Run :=
  { id := "", flowId, status := .queued, triggerType, startedAt := at_, testMode }

def transition (run : Run) (target : RunStatus) : Except InvalidTransition Run :=
  if run.status.mayBecome target then .ok { run with status := target }
  else .error ⟨run.status, target⟩

def start (run : Run) : Except InvalidTransition Run := run.transition .running

def succeed (run : Run) (at_ : Timestamp) : Except InvalidTransition Run :=
  match run.transition .success with
  | .ok run => .ok { run with finishedAt := some (at_.latest run.startedAt) }
  | .error e => .error e

def fail (run : Run) (error : String) (at_ : Timestamp) : Except InvalidTransition Run :=
  match run.transition .failed with
  | .ok run =>
    .ok { run with finishedAt := some (at_.latest run.startedAt), error := some error }
  | .error e => .error e

def isFinished (run : Run) : Bool := run.status.isTerminal

end Run

/-- Where a step stands. -/
inductive StepStatus where
  | running
  | success
  | failed
deriving DecidableEq, Repr

namespace StepStatus

def text : StepStatus → String
  | running => "running"
  | success => "success"
  | failed => "failed"

def ofText? (s : String) : Option StepStatus :=
  if s = "running" then some running
  else if s = "success" then some success
  else if s = "failed" then some failed
  else none

end StepStatus

/-- One node's execution within a run. -/
structure RunStep where
  id : String
  runId : String
  nodeId : String
  nodeType : String
  status : StepStatus
  startedAt : Timestamp
  finishedAt : Option Timestamp := none
  input : Option Json := none
  output : Option Json := none
  error : Option String := none

/-- What a step keeps of the data it saw: everything but null. -/
def snapshot (value : Json) : Option Json :=
  if value.isNull then none else some value

namespace RunStep

/-- A step that has begun and that the store has not yet given an identifier. -/
def begin_ (runId nodeId nodeType : String) (input : Option Json) (at_ : Timestamp) : RunStep :=
  { id := "", runId, nodeId, nodeType, status := .running, startedAt := at_, input }

/-- The step with its result; an error makes it failed. -/
def complete (step : RunStep) (output : Option Json) (error : Option String) (at_ : Timestamp) :
    RunStep :=
  { step with
    finishedAt := some (at_.latest step.startedAt)
    output
    status := if error.isSome then .failed else .success
    error }

end RunStep

end FlowEngine
