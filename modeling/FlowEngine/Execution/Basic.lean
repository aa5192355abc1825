import FlowEngine.Execution.Context
import FlowEngine.Execution.Settings
import FlowEngine.Flow.Traversal
import FlowEngine.Node.Registry
import FlowEngine.Template
/-!
# `FlowEngine.Execution.Basic` — executing a run

The trigger comes first, then the canvas breadth-first from it, one node at a time, until nothing is
left or a node fails.  A node is given its configuration, filled from the current data, and that
data; around it its step is recorded and its beginning and end are published.  What the store answers
to all this recording has no influence on the run.
-/

namespace FlowEngine

/-- What an executor works with. -/
structure Executor where
  settings : Settings := {}
  registry : Registry

namespace Executor

/-- How far a run has come. -/
structure Progress where
  context : ExecutionContext
  executed : List String := []
  steps : List RunStep := []

/-- How the walk over the canvas has ended; without an error it has met every node there was. -/
structure Walk where
  progress : Progress
  error : Option String := none

/-- What becomes of a node whose type nobody serves. -/
def unregistered (executor : Executor) (node : Node) : Except NodeError NodeOutput :=
  match executor.settings.unknownNodes with
  | .placeholder =>
    let message := "Node type " ++ node.kind ++ " not implemented"
    .ok { output := .object [("message", .string message)] }
  | .reject => .error (.unknownNodeType node.kind)

def invoke (executor : Executor) (run : Run) (node : Node) (data : Json) :
    Program (Except NodeError NodeOutput) :=
  match executor.registry.resolve? node.kind with
  | some handler =>
    handler.execute
      { runId := run.id, nodeId := node.id, nodeType := node.kind,
        config := Template.fillConfig node.config data, data, testMode := run.testMode }
  | none => return executor.unregistered node

def announce (run : Run) (node : Node) (millis : Nat) (result : Except NodeError NodeOutput) :
    Program Unit := do
  let moment ← Program.now
  match result with
  | .ok out => Program.publish (.nodeCompleted run.id node.id out.output millis moment)
  | .error e => Program.publish (.nodeFailed run.id node.id e.message moment)

/-- Execute one node, with its record and its events. -/
def runNode (executor : Executor) (run : Run) (node : Node) (progress : Progress) :
    Program (Except NodeError NodeOutput × Progress) := do
  let ledger := executor.settings.ledger
  let data := progress.context.data
  let opened ← ledger.beginStep run.id node.id node.kind data
  Program.publish (.nodeStarted run.id node.id node.kind (← Program.now))
  let before ← Program.elapsed
  let result ← executor.invoke run node data
  let after ← Program.elapsed
  let step ← ledger.finishStep opened (result.map NodeOutput.output)
  announce run node (after - before) result
  return (result, { progress with
    executed := progress.executed ++ [node.id]
    steps := progress.steps ++ [step] })

def takenBranch (executor : Executor) (out : NodeOutput) : Option String :=
  match executor.settings.branchMode with
  | .allSuccessors => none
  | .matchHandle => out.branch

/-- Hand on the output of a node and queue its successors. -/
def pass (executor : Executor) (nodeId : String) (out : NodeOutput) (progress : Progress)
    (traversal : Traversal) : Progress × Traversal :=
  ({ progress with context := progress.context.advance nodeId out.output },
    traversal.expand nodeId (executor.takenBranch out))

/-- Visit what is queued.  A queued identifier without a node is passed over.  Every identifier is
queued at most once and as the target of an edge, so as many visits as there are edges are
enough. -/
def visitQueued (executor : Executor) (run : Run) (canvas : Canvas) :
    Nat → Traversal → Progress → Program Walk
  | 0, _, progress => return { progress }
  | fuel + 1, traversal, progress =>
    match traversal.next? with
    | none => return { progress }
    | some (id, traversal) =>
      match canvas.find? id with
      | none => visitQueued executor run canvas fuel traversal progress
      | some node => do
        let (result, progress) ← executor.runNode run node progress
        match result with
        | .error e => return { progress, error := some e.message }
        | .ok out =>
          let (progress, traversal) := executor.pass id out progress traversal
          visitQueued executor run canvas fuel traversal progress

def walk (executor : Executor) (run : Run) (flow : Flow) (input : Json) : Program Walk := do
  let progress : Progress := { context := { runId := run.id, flowId := flow.id, data := input } }
  match flow.canvas.trigger? with
  | none => return { progress, error := some FlowError.noTriggerNode.message }
  | some trigger =>
    let (result, progress) ← executor.runNode run trigger progress
    match result with
    | .error e => return { progress, error := some ("Trigger failed: " ++ e.message) }
    | .ok out =>
      let (progress, traversal) := executor.pass trigger.id out progress
        (Traversal.start flow.canvas.edges trigger.id)
      executor.visitQueued run flow.canvas flow.canvas.edges.length traversal progress

/-- Record where a run stands; a store that fails is passed over. -/
def record (executor : Executor) (run : Run) : Program Unit := do
  let _ ← executor.settings.ledger.saveRunStatus run
  return ()

def finish (run : Run) (error : Option String) (moment : Timestamp) :
    Except InvalidTransition Run :=
  match error with
  | none => run.succeed moment
  | some e => run.fail e moment

/-- Execute a queued run to its end.  The failure of a node ends the run and is part of the report;
an error means that the run was not queued. -/
def execute (executor : Executor) (run : Run) (flow : Flow) (input : Json) :
    Program (Except FlowError RunReport) := do
  let before ← Program.elapsed
  match run.start with
  | .error e => return .error (.invalidTransition e)
  | .ok run =>
    executor.record run
    Program.publish (.runStarted run.id flow.id (← Program.now))
    let walk ← executor.walk run flow input
    let moment ← Program.now
    match finish run walk.error moment with
    | .error e => return .error (.invalidTransition e)
    | .ok run =>
      executor.record run
      let after ← Program.elapsed
      Program.publish (.runCompleted run.id run.status run.error (after - before) moment)
      let progress := walk.progress
      return .ok { run, data := progress.context.data, outputs := progress.context.outputs,
                   executed := progress.executed, steps := progress.steps }

end Executor

end FlowEngine
