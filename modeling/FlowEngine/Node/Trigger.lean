import FlowEngine.Node.Registry
/-!
# `FlowEngine.Node.Trigger` — where a run begins

A trigger hands on the event that started the run, or, when its author has pinned sample data in the
editor, that sample.
-/

namespace FlowEngine.Trigger

/-- Hand on the sample data, if there is any, or else the event. -/
def execute (ctx : NodeContext) : Program (Except NodeError NodeOutput) := do
  match ctx.document? "testData" with
  | .error e => return .error e
  | .ok (some sample) =>
    ctx.notify (.info "Using testData from the trigger config")
    return .ok { output := sample }
  | .ok none => return .ok { output := ctx.data }

def handler (kind description : String) : Handler :=
  { kind, metadata := { description, category := "trigger" }, execute }

/-- The trigger of flows that are started by hand. -/
def manual : Handler := handler "trigger.manual" "Start a flow by hand"

def cronKind : String := "trigger.cron"

/-- The trigger of flows that start on a schedule. -/
def cron : Handler := handler cronKind "Start a flow on a schedule"

def webhookKind : String := "trigger.webhook"

/-- The trigger of flows that start on a web request. -/
def webhook : Handler := handler webhookKind "Start a flow from an incoming HTTP call"

end FlowEngine.Trigger
