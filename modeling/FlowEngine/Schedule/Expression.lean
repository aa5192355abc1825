import FlowEngine.Flow.Basic
import FlowEngine.Json.Reader
import FlowEngine.Node.Trigger
import FlowEngine.Text.Blank
/-!
# `FlowEngine.Schedule.Expression` — what the triggers of a flow ask for

A trigger that starts flows on a schedule says when, either by an expression under `cron` or by the
name of a shortcut under `schedule`; the expression wins, and a trigger that says neither runs every
fifteen minutes.  Expressions begin with the second; one of five fields fires at second zero.

What an expression means is not said here: whoever keeps the jobs reads it (`Reader`).
-/

namespace FlowEngine.Schedule

/-- The shortcuts and what they stand for. -/
def shortcuts : List (String × String) :=
  [("5s", "*/5 * * * * *"), ("10s", "*/10 * * * * *"), ("20s", "*/20 * * * * *"),
    ("30s", "*/30 * * * * *"), ("1m", "0 * * * * *"), ("2m", "0 */2 * * * *"),
    ("5m", "0 */5 * * * *"), ("10m", "0 */10 * * * *"), ("15m", "0 */15 * * * *"),
    ("20m", "0 */20 * * * *"), ("30m", "0 */30 * * * *"), ("1h", "0 0 * * * *"),
    ("6h", "0 0 */6 * * *"), ("1d", "0 0 9 * * *")]

/-- The shortcut of triggers that say nothing. -/
def defaultShortcut : String := "15m"

/-- What a shortcut stands for; any other text stands for itself. -/
def expand (schedule : String) : String :=
  match shortcuts.find? fun pair => pair.1 == schedule with
  | some (_, expression) => expression
  | none => schedule

/-- An expression trimmed, with second zero in front if it has five fields. -/
def withSeconds (expression : String) : String :=
  let expression := Text.trim expression
  if Text.fieldCount expression = 5 then "0 " ++ expression else expression

def toExpression (schedule : String) : String := withSeconds (expand (Text.trim schedule))

/-- A start that a trigger asks for. -/
structure Entry where
  flowId : String
  nodeId : String
  expression : String
  /-- The input of the run, if the trigger has sample data. -/
  payload : Option Json := none

/-- The name under which an entry is scheduled. -/
def Entry.key (entry : Entry) : String := entry.flowId ++ ":" ++ entry.nodeId

/-- The sample data of a trigger; a text that spells no value is passed over. -/
def payload? (config : Json.Members) : Option Json :=
  match Json.lookup "testData" config with
  | none => none
  | some .null => none
  | some (.string s) => if (Text.nonBlank? s).isSome then Json.parse? s else none
  | some other => some other

/-- A text of a configuration that is not blank, trimmed. -/
def configText? (config : Json.Members) (name : String) : Option String :=
  ((Json.lookup name config).bind Json.text?).bind Text.nonBlank?

def expressionOf (config : Json.Members) : String :=
  match configText? config "cron" with
  | some expression => withSeconds expression
  | none => toExpression ((configText? config "schedule").getD defaultShortcut)

def Entry.ofNode (flowId : String) (node : Node) : Entry :=
  { flowId, nodeId := node.id, expression := expressionOf node.config,
    payload := payload? node.config }

/-- The starts that the triggers of a flow ask for. -/
def entries (flow : Flow) : List Entry :=
  (flow.canvas.nodes.filter fun node => node.kind == Trigger.cronKind).map
    (Entry.ofNode flow.id)

/-- When something falls due again: the first such second behind a moment, counted from 1970. -/
def Recurrence : Type := Timestamp → Option Int

/-- What tells when a job falls due, of the expressions that it can read. -/
structure Reader where
  read? : String → Option Recurrence

end FlowEngine.Schedule
