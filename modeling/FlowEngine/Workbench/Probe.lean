import FlowEngine.Node.Standard
/-!
# `FlowEngine.Workbench.Probe` — nodes that show how a run goes

Probes leave a trail in the data, fail, decide for a branch of one's choice, give nothing, or show
what they see.
-/

namespace FlowEngine.Workbench.Probe

/-- The data with the node's identifier at the end of its trail, and with its label if it has one. -/
def marked (ctx : NodeContext) : Json :=
  let members := ctx.data.members?.getD []
  let trail := ((Json.lookup "trail" members).bind Json.text?).getD ""
  let members := Json.insert "trail" (.string (trail ++ ctx.nodeId)) members
  .object (match ctx.text? "label" with
    | some label => Json.insert "label" (.string label) members
    | none => members)

/-- Leaves a trail. -/
def mark : Handler :=
  { kind := "test.mark", execute := fun ctx => return .ok { output := marked ctx } }

/-- Fails. -/
def boom : Handler :=
  { kind := "test.boom", execute := fun _ => return .error (.executionFailed "kaput") }

/-- Decides for the branch that is named in the configuration, and says so. -/
def executeFork (ctx : NodeContext) : Program (Except NodeError NodeOutput) :=
  match ctx.requireText "branch" with
  | .error e => return .error e
  | .ok branch => do
    ctx.notify (.warning ("forking to " ++ branch))
    return .ok { output := ctx.data, branch := some branch }

def fork : Handler :=
  { kind := "test.fork", execute := executeFork }

def null : Handler :=
  { kind := "test.null", execute := fun _ => return .ok { output := .null } }

def seen (ctx : NodeContext) : Json :=
  .record [("run", .string ctx.runId), ("node", .string ctx.nodeId),
    ("type", .string ctx.nodeType), ("config", .object ctx.config), ("data", ctx.data),
    ("testMode", .bool ctx.testMode)]

def mode : Handler :=
  { kind := "test.mode", execute := fun ctx => return .ok { output := seen ctx } }

/-- The standard node types and the probes. -/
def registry : Registry :=
  Registry.ofHandlers (standardHandlers ++ [mark, boom, fork, null, mode])

end FlowEngine.Workbench.Probe
