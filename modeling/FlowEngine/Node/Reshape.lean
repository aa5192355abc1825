import FlowEngine.Node.Registry
import FlowEngine.Template
/-!
# `FlowEngine.Node.Reshape` — the node that builds new data from a template

Every text of the template is filled from the current data, at any depth.
-/

namespace FlowEngine.Reshape

def execute (ctx : NodeContext) : Program (Except NodeError NodeOutput) :=
  match ctx.document? "template" with
  | .error e => return .error e
  | .ok none => return .error (.missingConfig "template")
  | .ok (some template) => return .ok { output := Template.fillValue ctx.data template }

/-- The node that builds new data from a template. -/
def handler : Handler :=
  { kind := "map.transform"
    metadata := { description := "Build a new object from a template", category := "transform" }
    execute }

end FlowEngine.Reshape
