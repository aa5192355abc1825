import FlowEngine.Text.Split
/-!
# `FlowEngine.CommandLine.Arguments` — options and operands

An argument is an option, a bundle of short options, the value of the option before it, or an
operand.  A long option has its value behind `=` or in the next argument, a short one behind itself or
in the next argument; an argument that begins with a dash is never the value of the one before, except
the dash alone.  Behind `--` there are operands only.  No option may be given twice.

Arguments are read from the left and checked as they are read: the first that asks for help or cannot
be understood decides, and what follows it is not looked at.
-/

namespace FlowEngine.CommandLine

/-- An option that a command knows. -/
structure OptionSpec where
  long : String
  short : Option Char := none
  /-- The values that the option takes, if it has one. -/
  accepts : Option (String → Bool) := none

/-- What a command can be given. -/
structure Signature where
  options : List OptionSpec
  /-- The values that the operands take, in their order. -/
  operands : List (String → Bool) := []

def Signature.long? (signature : Signature) (name : String) : Option OptionSpec :=
  signature.options.find? fun spec => spec.long == name

def Signature.short? (signature : Signature) (c : Char) : Option OptionSpec :=
  signature.options.find? fun spec => spec.short == some c

/-- The arguments of a command, told apart. -/
structure Arguments where
  flags : List String := []
  values : List (String × String) := []
  operands : List String := []
deriving DecidableEq, Repr

/-- Why arguments are not told apart. -/
inductive Refusal where
  /-- They cannot be understood. -/
  | usage
  /-- They ask for help. -/
  | help
deriving DecidableEq, Repr

namespace Arguments

def value? (arguments : Arguments) (long : String) : Option String :=
  (arguments.values.find? fun pair => pair.1 == long).map Prod.snd

def has (arguments : Arguments) (long : String) : Bool :=
  arguments.flags.contains long || (arguments.value? long).isSome

def addFlag (arguments : Arguments) (spec : OptionSpec) : Except Refusal Arguments :=
  if arguments.has spec.long then .error .usage
  else .ok { arguments with flags := arguments.flags ++ [spec.long] }

def addValue (arguments : Arguments) (spec : OptionSpec) (value : String) :
    Except Refusal Arguments :=
  if arguments.has spec.long || !(spec.accepts.any fun accepts => accepts value) then .error .usage
  else .ok { arguments with values := arguments.values ++ [(spec.long, value)] }

def addOperand (signature : Signature) (arguments : Arguments) (operand : String) :
    Except Refusal Arguments :=
  match signature.operands[arguments.operands.length]? with
  | some accepts =>
    if accepts operand then .ok { arguments with operands := arguments.operands ++ [operand] }
    else .error .usage
  | none => .error .usage

/-- The argument begins with a dash and is more than that. -/
def isOption (argument : String) : Bool :=
  Text.startsWith "-" argument && argument != "-"

/-- What a long option is, and its value if it has one behind `=`. -/
def longOption? (argument : String) : Option (String × Option String) :=
  (Text.dropStart? "--" argument).map fun name =>
    match Text.cutFirst? '=' name with
    | some (name, value) => (name, some value)
    | none => (name, none)

/-- The value that stands right behind a short option, if there is any. -/
def attached? : List Char → Option String
  | [] => none
  | '=' :: rest => some (String.ofList rest)
  | rest => some (String.ofList rest)

/-- Read an option that may have its value with it; the result tells the option whose value comes
next. -/
def addOption (arguments : Arguments) (spec : OptionSpec) :
    Option String → Except Refusal (Arguments × Option OptionSpec)
  | some value => (arguments.addValue spec value).map fun arguments => (arguments, none)
  | none =>
    if spec.accepts.isSome then .ok (arguments, some spec)
    else (arguments.addFlag spec).map fun arguments => (arguments, none)

def addLong (signature : Signature) (arguments : Arguments) (name : String)
    (value : Option String) : Except Refusal (Arguments × Option OptionSpec) :=
  if name = "help" && value.isNone then .error .help
  else
    match signature.long? name with
    | some spec => arguments.addOption spec value
    | none => .error .usage

/-- Read a bundle of short options, of which the first that has a value ends it. -/
def addBundle (signature : Signature) (arguments : Arguments) :
    List Char → Except Refusal (Arguments × Option OptionSpec)
  | [] => .ok (arguments, none)
  | c :: rest =>
    if c = 'h' then .error .help
    else
      match signature.short? c with
      | none => .error .usage
      | some spec =>
        if spec.accepts.isSome then arguments.addOption spec (attached? rest)
        else
          match arguments.addFlag spec with
          | .ok arguments => addBundle signature arguments rest
          | .error e => .error e

/-- Read one argument that is neither a value of the one before nor `--`. -/
def add (signature : Signature) (arguments : Arguments) (argument : String) :
    Except Refusal (Arguments × Option OptionSpec) :=
  match longOption? argument with
  | some (name, value) => addLong signature arguments name value
  | none =>
    if isOption argument then addBundle signature arguments (argument.toList.drop 1)
    else (addOperand signature arguments argument).map fun arguments => (arguments, none)

/-- Tell arguments apart, behind those that already are; `pending` is an option whose value comes
next. -/
def scan (signature : Signature) (arguments : Arguments) :
    (pending : Option OptionSpec) → List String → Except Refusal Arguments
  | some _, [] => .error .usage
  | some spec, argument :: rest =>
    if isOption argument then .error .usage
    else
      match arguments.addValue spec argument with
      | .ok arguments => scan signature arguments none rest
      | .error e => .error e
  | none, [] => .ok arguments
  | none, argument :: rest =>
    if argument = "--" then rest.foldlM (addOperand signature) arguments
    else
      match add signature arguments argument with
      | .ok (arguments, pending) => scan signature arguments pending rest
      | .error e => .error e

end Arguments

end FlowEngine.CommandLine
