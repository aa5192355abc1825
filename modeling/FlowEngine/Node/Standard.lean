import FlowEngine.Node.Branch
import FlowEngine.Node.Record
import FlowEngine.Node.Reshape
import FlowEngine.Node.Send
import FlowEngine.Node.Trigger
import FlowEngine.Node.Wait
/-!
# `FlowEngine.Node.Standard` — the node types that every engine has
-/

namespace FlowEngine

/-- The handlers that every engine has. -/
def standardHandlers : List Handler :=
  [Trigger.manual, Trigger.cron, Trigger.webhook, Send.message, Send.mail, RecordNode.find,
    RecordNode.getOne, RecordNode.create, RecordNode.update, Branch.handler, Reshape.handler,
    Wait.handler]

def Registry.standard : Registry := Registry.ofHandlers standardHandlers

end FlowEngine
