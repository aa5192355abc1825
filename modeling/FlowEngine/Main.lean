import FlowEngine.CommandLine.Report
/-!
# `FlowEngine.Main` — the program

Reads the variables of the environment, the arguments and the files, and says what the commands have
to say; while a flow runs, its events are told as they happen and its waits are real.  There is no
connection to providers here: a request to one gets no reply, and a provider without an address is
played in memory.
-/

namespace FlowEngine.CommandLine

/-- The variables of the environment that mean something. -/
def variableNames : List String :=
  ["RELAY_BRANCH_MODE", "RELAY_UNKNOWN_NODES", "RELAY_EVENT_BUFFER", "RELAY_POCKETBASE_URL",
    "RELAY_POCKETBASE_TOKEN", "RELAY_WHATSAPP_URL", "RELAY_WHATSAPP_INSTANCE",
    "RELAY_WHATSAPP_API_KEY", "RELAY_EMAIL_URL"]

def readEnvironment : IO Environment :=
  variableNames.filterMapM fun name => do
    return (← IO.getEnv name).map fun value => (name, value)

def randomNumber : IO Nat := do
  let bytes ← IO.getRandomBytes 16
  return bytes.toList.foldl (fun n b => 256 * n + b.toNat) 0

/-- The text of a random identifier, in five groups. -/
def groupedId (n : Nat) : String :=
  let digits := Text.hex 32 n
  let group (first size : Nat) : String := String.ofList ((digits.drop first).take size)
  group 0 8 ++ "-" ++ group 8 4 ++ "-4" ++ group 13 3 ++ "-a" ++ group 17 3 ++ "-" ++ group 20 12

def readText (path : String) : IO (Option String) := do
  try
    return some (← IO.FS.readFile path)
  catch _ => return none

/-- Say what an outcome says; the result is the exit code. -/
def say (outcome : Outcome) : IO UInt32 := do
  outcome.said.forM fun line => IO.println line
  match outcome.error with
  | some e => IO.eprintln ("Error: " ++ e)
  | none => pure ()
  return outcome.code.toUInt32

def longestPause : Nat := 4294967295

/-- Perform a program: events are told, waits are real, everything else is answered in memory. -/
def performLive {α : Type} (gateways : GatewaySettings) (tell : Event → IO Unit) :
    Program α → Correspondence → IO α
  | .done result, _ => return result
  | .act (.publish event) next, c => do
    tell event
    performLive gateways tell (next ()) c
  | .act (.sleep millis) next, c => do
    IO.sleep (min millis longestPause).toUInt32
    performLive gateways tell (next ()) c
  | .act .elapsed next, c => do
    performLive gateways tell (next (← IO.monoMsNow)) c
  | .act action next, c =>
    let (reply, c) := Correspondence.answer .plain gateways (fun _ => none) action c
    performLive gateways tell (next reply) c

/-- Run the flow of a file, saying what happens as it happens. -/
def runLive (environment : Environment) (options : RunOptions) : IO UInt32 := do
  let wording : Wording := { run := id, millis := fun n => toString n ++ "ms" }
  let (said, prepared) := prepare options (← readText options.file)
  match prepared with
  | .error e => say { said, error := some e }
  | .ok task =>
    said.forM fun line => IO.println line
    let seed ← randomNumber
    let store : MemoryStore := { supply := fun n => String.ofList (Text.hex 32 (seed + n)) }
    let result ← performLive (GatewaySettings.ofEnvironment environment)
      (fun event => IO.println (eventLine wording event))
      (program environment options task) { store }
    say (conclude wording task.flow result)

def writeExample (output : String) : IO UInt32 := do
  try
    IO.FS.writeFile output (exampleFlow (groupedId (← randomNumber))).toJson.pretty
    say { said := exampleLines output }
  catch e => say { error := some (toString e) }

def perform (environment : Environment) : Command → IO UInt32
  | .run options => runLive environment options
  | .validate file => do say (reportValidate file (← readText file))
  | .nodes => say reportNodes
  | .init output => writeExample output

def usage : String := "Usage: relay [-v] run|validate|nodes|init [OPTIONS]"

/-- Tell how the program is used; asking for it is no error. -/
def refuse (refusal : Refusal) : IO UInt32 := do
  match refusal with
  | .help => IO.println usage
  | .usage => IO.eprintln usage
  return refusal.code.toUInt32

end FlowEngine.CommandLine

def main (arguments : List String) : IO UInt32 := do
  let environment ← FlowEngine.CommandLine.readEnvironment
  match FlowEngine.CommandLine.Command.parse environment arguments with
  | .ok command => FlowEngine.CommandLine.perform environment command
  | .error refusal => FlowEngine.CommandLine.refuse refusal
