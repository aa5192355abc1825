import FlowEngine.CommandLine.Arguments
import FlowEngine.Execution.Settings
import FlowEngine.Run.Basic
/-!
# `FlowEngine.CommandLine.Command` — what is asked of the program

Four commands: run a flow from a file, check one, list the node types, write an example.  The option
to be verbose may stand before the command or behind it.  The mode of branches has an option, and the
environment may give it where the option is missing.
-/

namespace FlowEngine.CommandLine

/-- How a flow is to be run. -/
structure RunOptions where
  file : String
  input : Option String := none
  trigger : TriggerType := .manual
  testMode : Bool := false
  branchMode : Option BranchMode := none
  /-- A node whose type nobody serves fails. -/
  strict : Bool := false
deriving DecidableEq, Repr

/-- What is asked of the program. -/
inductive Command where
  | run (options : RunOptions)
  | validate (file : String)
  | nodes
  | init (output : String)
deriving DecidableEq, Repr

namespace Command

def verbose : OptionSpec := { long := "verbose", short := some 'v' }

/-- A text that can be the name of a file. -/
def isFileName (s : String) : Bool := !s.isEmpty

def isReadable {α : Type} (parse : String → Except String α) (s : String) : Bool := (parse s).toBool

def runSignature : Signature :=
  { options :=
      [{ long := "file", short := some 'f', accepts := some isFileName },
        { long := "input", short := some 'i', accepts := some fun _ => true },
        { long := "trigger", short := some 't', accepts := some (isReadable TriggerType.parse) },
        { long := "test" },
        { long := "branch-mode", accepts := some (isReadable BranchMode.parse) },
        { long := "strict" },
        verbose] }

def validateSignature : Signature := { options := [verbose], operands := [isFileName] }

def nodesSignature : Signature := { options := [verbose] }

def initSignature : Signature :=
  { options := [{ long := "output", short := some 'o', accepts := some isFileName }, verbose] }

def read {α : Type} (parse : String → Except String α) (s : String) : Except Refusal α :=
  match parse s with
  | .ok value => .ok value
  | .error _ => .error .usage

def readOptional {α : Type} (parse : String → Except String α) :
    Option String → Except Refusal (Option α)
  | some s => (read parse s).map some
  | none => .ok none

def ofRunArguments (environment : Environment) (arguments : Arguments) :
    Except Refusal Command := do
  let trigger ← readOptional TriggerType.parse (arguments.value? "trigger")
  let branchMode ← readOptional BranchMode.parse
    ((arguments.value? "branch-mode").or (environment.get? "RELAY_BRANCH_MODE"))
  match arguments.value? "file" with
  | none => .error .usage
  | some file =>
    .ok (.run
      { file, input := arguments.value? "input", trigger := trigger.getD .manual,
        testMode := arguments.has "test", branchMode, strict := arguments.has "strict" })

/-- The command of a name, behind which its arguments stand. -/
def ofName (environment : Environment) (name : String) (arguments : List String) :
    Except Refusal Command :=
  if name = "run" then do
    ofRunArguments environment (← Arguments.scan runSignature {} none arguments)
  else if name = "validate" then do
    match (← Arguments.scan validateSignature {} none arguments).operands.head? with
    | some file => return .validate file
    | none => .error .usage
  else if name = "nodes" then do
    let _ ← Arguments.scan nodesSignature {} none arguments
    return .nodes
  else if name = "init" then do
    let arguments ← Arguments.scan initSignature {} none arguments
    return .init ((arguments.value? "output").getD "flow.json")
  else .error .usage

def names : List String := ["run", "validate", "nodes", "init", "help"]

/-- What a request for help gets; it names one command at most. -/
def ofHelp : List String → Except Refusal Command
  | [] => .error .help
  | [name] => if names.contains name then .error .help else .error .usage
  | _ => .error .usage

/-- What is asked by arguments; what stands in front of the name of the command can only ask to be
verbose. -/
def parseFrom (environment : Environment) (arguments : Arguments) :
    List String → Except Refusal Command
  | [] => .error .usage
  | argument :: rest =>
    if argument = "help" then ofHelp rest
    else if argument = "--" then .error .usage
    else if Arguments.isOption argument then
      match Arguments.add { options := [verbose] } arguments argument with
      | .ok (arguments, _) => parseFrom environment arguments rest
      | .error e => .error e
    else ofName environment argument rest

def parse (environment : Environment) (arguments : List String) : Except Refusal Command :=
  parseFrom environment {} arguments

end Command

end FlowEngine.CommandLine
