import FlowEngine.Json.Printer
import FlowEngine.Json.Reader
import FlowEngine.Program
import FlowEngine.Text.Blank
/-!
# `FlowEngine.Node.Context` — what a node sees and what it gives back

A node sees its configuration, with placeholders filled, and the data that the node before it gave.
Configuration values come from an editor and from templates, so the readers here are lenient: a blank
text is as good as no value, a number may be spelled out, and a document may be given as its text.
-/

namespace FlowEngine

/-- Everything a node sees. -/
structure NodeContext where
  runId : String
  nodeId : String
  nodeType : String
  /-- The configuration with its placeholders filled. -/
  config : Json.Members
  /-- What the node before gave, or the event that started the run. -/
  data : Json
  testMode : Bool

/-- What a node gives back. -/
structure NodeOutput where
  output : Json
  /-- The branch that the node has decided for. -/
  branch : Option String := none

def NodeOutput.toJson (out : NodeOutput) : Json :=
  .record ([("output", out.output)] ++ Json.member? "branch" (out.branch.map .string))

/-- What a type of node is for. -/
structure NodeMetadata where
  description : String := ""
  category : String := "general"
deriving DecidableEq, Repr

namespace NodeContext

/-- A context outside of any run. -/
def detached (nodeType : String) (config : Json.Members) (data : Json) : NodeContext :=
  { runId := "", nodeId := nodeType, nodeType, config, data, testMode := true }

/-- A text that is not blank, trimmed. -/
def text? (ctx : NodeContext) (name : String) : Option String :=
  match Json.lookup name ctx.config with
  | some (.string s) => Text.nonBlank? s
  | _ => none

def requireText (ctx : NodeContext) (name : String) : Except NodeError String :=
  match ctx.text? name with
  | some s => .ok s
  | none => .error (.missingConfig name)

/-- A number, or a text that spells one. -/
def float? (ctx : NodeContext) (name : String) : Except NodeError (Option Float) :=
  match Json.lookup name ctx.config with
  | none => .ok none
  | some .null => .ok none
  | some (.number n) => .ok (some n.toFloat)
  | some (.string s) =>
    match Text.nonBlank? s with
    | none => .ok none
    | some t =>
      match Decimal.float? t with
      | some x => .ok (some x)
      | none => .error (.invalidConfig name ("'" ++ s ++ "' is not a number"))
  | some other => .error (.invalidConfig name ("expected a number, got " ++ other.compact))

def bits? (ctx : NodeContext) (name : String) : Except NodeError (Option UInt64) :=
  (ctx.float? name).map fun found =>
    found.map (Decimal.bitsOf ((ctx.text? name).getD ""))

/-- A count of at least one, rounded down and cut off at 32 bits; anything less is the default. -/
def count (ctx : NodeContext) (name : String) (default : UInt32) : Except NodeError UInt32 :=
  match ctx.float? name with
  | .error e => .error e
  | .ok (some x) => .ok (if 1.0 ≤ x then x.toUInt32 else default)
  | .ok none => .ok default

/-- A value, or the value that a text spells. -/
def document? (ctx : NodeContext) (name : String) : Except NodeError (Option Json) :=
  match Json.lookup name ctx.config with
  | none => .ok none
  | some .null => .ok none
  | some (.string s) =>
    match Text.nonBlank? s with
    | none => .ok none
    | some _ =>
      match Json.parse? s with
      | some value => .ok (some value)
      | none => .error (.invalidConfig name unreadableText)
  | some other => .ok (some other)

def notify (ctx : NodeContext) (notice : Notice) : Program Unit :=
  Program.publish (.nodeNotice ctx.runId ctx.nodeId notice)

end NodeContext

end FlowEngine
