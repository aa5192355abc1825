import FlowEngine.Execution.Policy
import FlowEngine.Ledger.Basic
import FlowEngine.Library.Basic
import FlowEngine.Text.Numeral
/-!
# `FlowEngine.Execution.Settings` — how an engine is set up

Settings have defaults, which variables of the environment may override; a variable whose value
cannot be read is passed over.
-/

namespace FlowEngine

abbrev Environment := List (String × String)

/-- The value of a variable; of several of one name the last counts. -/
def Environment.get? (environment : Environment) (name : String) : Option String :=
  (environment.reverse.find? fun pair => pair.1 == name).map Prod.snd

def Environment.read? {α : Type} (environment : Environment) (name : String)
    (read : String → Option α) : Option α :=
  (environment.get? name).bind read

/-- How an engine is set up. -/
structure Settings where
  /-- How many events a listener may fall behind. -/
  eventBuffer : Nat := 1000
  branchMode : BranchMode := .allSuccessors
  unknownNodes : UnknownNodePolicy := .placeholder
  ledger : Ledger := {}
  library : Library := {}
deriving DecidableEq, Repr

namespace Settings

def ofEnvironment (environment : Environment) : Settings :=
  let defaults : Settings := {}
  { defaults with
    branchMode := (environment.read? "RELAY_BRANCH_MODE" fun s =>
      (BranchMode.parse s).toOption).getD defaults.branchMode
    unknownNodes := (environment.read? "RELAY_UNKNOWN_NODES" fun s =>
      (UnknownNodePolicy.parse s).toOption).getD defaults.unknownNodes
    eventBuffer := (environment.read? "RELAY_EVENT_BUFFER" Text.index?).getD
      defaults.eventBuffer }

end Settings

end FlowEngine
