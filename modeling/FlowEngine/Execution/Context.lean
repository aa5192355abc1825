import FlowEngine.Json.Basic
/-!
# `FlowEngine.Execution.Context` — the data of a run on its way through the nodes

Each node is given the current data and leaves an output.  The output becomes the data of the next
node, unless it is null, and then the data stays; it is kept under the node's identifier either way.
-/

namespace FlowEngine

/-- The data of a run. -/
structure ExecutionContext where
  runId : String
  flowId : String
  /-- What the next node is given. -/
  data : Json
  /-- The outputs so far, by the identifier of the node. -/
  outputs : Json.Members := []

namespace ExecutionContext

def outputOf? (context : ExecutionContext) (nodeId : String) : Option Json :=
  Json.lookup nodeId context.outputs

/-- The context behind a node that has left an output. -/
def advance (context : ExecutionContext) (nodeId : String) (output : Json) : ExecutionContext :=
  { context with
    data := if output.isNull then context.data else output
    outputs := Json.insert nodeId output context.outputs }

end ExecutionContext

end FlowEngine
