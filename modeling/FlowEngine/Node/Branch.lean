import FlowEngine.Condition.Eval
import FlowEngine.Condition.Expr
import FlowEngine.Node.Registry
import FlowEngine.Template
/-!
# `FlowEngine.Node.Branch` — the node that decides between two branches

The condition sees the current data under `input`.  The output is the data with the decision added,
so later nodes still see what came in; data that is no object is dropped.
-/

namespace FlowEngine.Branch

def name (decision : Bool) : String := if decision then "true" else "false"

/-- The data with the decision added. -/
def decided (data : Json) (decision : Bool) : Json :=
  let members := data.members?.getD []
  .object (Json.insert "branch" (.string (name decision))
    (Json.insert "result" (.bool decision) members))

def execute (ctx : NodeContext) : Program (Except NodeError NodeOutput) := do
  match ctx.requireText "condition" with
  | .error e => return .error e
  | .ok source =>
    match Condition.parse source with
    | .error e => return .error (.condition e)
    | .ok condition =>
      let decision := condition.holds (.object [(Template.rootName, ctx.data)])
      ctx.notify (.info ("Condition `" ++ source ++ "` took the " ++ name decision ++ " branch"))
      return .ok { output := decided ctx.data decision, branch := some (name decision) }

/-- The node that decides between two branches. -/
def handler : Handler :=
  { kind := "logic.if"
    metadata := { description := "Branch on a condition over the current data", category := "logic" }
    execute }

end FlowEngine.Branch
