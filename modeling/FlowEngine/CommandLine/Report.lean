import FlowEngine.CommandLine.Command
import FlowEngine.CommandLine.Files
import FlowEngine.Engine
import FlowEngine.Flow.Validation
import FlowEngine.Gateway.Exchange
import FlowEngine.Json.Printer
import FlowEngine.Node.Standard
/-!
# `FlowEngine.CommandLine.Report` — what the program says

A command says something, line by line, and may end with an error.  What is said while a flow runs is
told from the events of the run.  How a run and a duration are shown is left to whoever shows them.
-/

namespace FlowEngine.CommandLine

/-- How a run and a duration are shown. -/
structure Wording where
  run : String → String
  millis : Nat → String

/-- What the program has said, and the error that it ends with. -/
structure Outcome where
  said : List String := []
  error : Option String := none

/-! ## Running a flow -/

def statusName : FlowStatus → String
  | .draft => "Draft"
  | .active => "Active"
  | .archived => "Archived"

/-- What is said of a flow before it runs. -/
def introduction (flow : Flow) : List String :=
  ["📋 Flow: " ++ flow.name ++ " (" ++ statusName flow.status ++ ")",
    "   Nodes: " ++ toString flow.canvas.nodes.length,
    "   Edges: " ++ toString flow.canvas.edges.length,
    ""]

def eventLine (wording : Wording) : Event → String
  | .runStarted runId _ _ => "▶️  Run " ++ wording.run runId ++ " started"
  | .nodeStarted _ nodeId nodeType _ => "  ⚡ Starting node: " ++ nodeId ++ " (" ++ nodeType ++ ")"
  | .nodeCompleted _ nodeId _ millis _ =>
    "  ✅ Node " ++ nodeId ++ " completed in " ++ wording.millis millis
  | .nodeFailed _ nodeId error _ => "  ❌ Node " ++ nodeId ++ " failed: " ++ error
  | .nodeNotice _ nodeId (.info message) => "     ℹ️  [" ++ nodeId ++ "] " ++ message
  | .nodeNotice _ nodeId (.warning message) => "     ⚠️  [" ++ nodeId ++ "] " ++ message
  | .runCompleted _ status none millis _ =>
    "✨ Run finished " ++ status.text ++ " in " ++ wording.millis millis
  | .runCompleted _ status (some error) millis _ =>
    "💥 Run " ++ status.text ++ " after " ++ wording.millis millis ++ ": " ++ error

def summary (wording : Wording) (flow : Flow) (report : RunReport) : List String :=
  ["",
    "📊 Run Summary:",
    "   Run ID: " ++ wording.run report.run.id,
    "   Status: " ++ report.run.status.text,
    "   Executed: " ++ toString report.executed.length ++ "/" ++
      toString flow.canvas.nodes.length ++ " nodes",
    "",
    "📤 Final data:",
    report.data.pretty]

/-- The error that a run leaves the program with. -/
def runError (report : RunReport) : Option String :=
  if report.succeeded then none
  else some ("run failed: " ++ report.run.error.getD "unknown error")

def runSettings (environment : Environment) (options : RunOptions) : Settings :=
  let settings := Settings.ofEnvironment environment
  { settings with
    branchMode := options.branchMode.getD settings.branchMode
    unknownNodes := if options.strict then .reject else settings.unknownNodes }

def inputOf : Option String → Option Json
  | some text => Json.parse? text
  | none => some (.object [])

/-- The flow of a file, or what is wrong with the file. -/
def loadFlow (file : String) (text : Option String) : Except String Flow :=
  match text with
  | none => .error ("reading " ++ file)
  | some text =>
    match (Document.parse? text).bind Flow.decode? with
    | some flow => .ok flow
    | none => .error ("parsing " ++ file)

/-- A flow that is to be run, and its input. -/
structure Task where
  flow : Flow
  input : Json

def program (environment : Environment) (options : RunOptions) (task : Task) :
    Program (Except FlowError RunReport) :=
  let engine : Engine :=
    { settings := runSettings environment options, registry := Registry.standard }
  Engine.runFlow engine task.flow options.trigger task.input options.testMode

/-- Run a flow with the providers of the environment, none of which can be reached. -/
def execute (environment : Environment) (options : RunOptions) (task : Task) :
    Except FlowError RunReport × List Event :=
  let answer :=
    Correspondence.answer .plain (GatewaySettings.ofEnvironment environment) fun _ => none
  ((program environment options task).capture.runWith answer {}).1

/-- What is said before a flow runs, and the flow, or what keeps it from running. -/
def prepare (options : RunOptions) (text : Option String) : List String × Except String Task :=
  let loading := ["🚀 Loading flow from: " ++ options.file]
  match loadFlow options.file text with
  | .error e => (loading, .error e)
  | .ok flow =>
    (loading ++ introduction flow,
      match inputOf options.input with
      | none => .error "input must be valid JSON"
      | some input => .ok { flow, input })

def conclude (wording : Wording) (flow : Flow) : Except FlowError RunReport → Outcome
  | .error e => { error := some e.message }
  | .ok report => { said := summary wording flow report, error := runError report }

def reportRun (wording : Wording) (environment : Environment) (options : RunOptions)
    (text : Option String) : Outcome :=
  match prepare options text with
  | (said, .error e) => { said, error := some e }
  | (said, .ok task) =>
    let (result, events) := execute environment options task
    let outcome := conclude wording task.flow result
    { outcome with said := said ++ events.map (eventLine wording) ++ outcome.said }

/-! ## The other commands -/

def reportValidate (file : String) (text : Option String) : Outcome :=
  let said := ["🔍 Validating flow: " ++ file]
  match loadFlow file text with
  | .error e => { said, error := some e }
  | .ok flow =>
    match flow.canvas.validate with
    | .error _ => { said, error := some "canvas is not runnable" }
    | .ok () =>
      let unknown := flow.canvas.nodes.filter fun node => !Registry.standard.contains node.kind
      { said := said ++
          ["✅ Flow is valid:",
            "   Name: " ++ flow.name,
            "   Nodes: " ++ toString flow.canvas.nodes.length,
            "   Edges: " ++ toString flow.canvas.edges.length] ++
          unknown.map fun node =>
            "   ⚠️  Node " ++ node.id ++ " has unknown type " ++ node.kind }

def nodeTypeLines (kind : String) : List String :=
  match Registry.standard.metadata? kind with
  | some metadata =>
    ["  • " ++ kind ++ " (" ++ metadata.category ++ ")", "    " ++ metadata.description]
  | none => ["  • " ++ kind]

def reportNodes : Outcome :=
  { said := ["📦 Available Node Types:", ""] ++ Registry.standard.kinds.flatMap nodeTypeLines }

/-- A flow that greets a lead. -/
def exampleFlow (id : String) : Flow :=
  let flow := { Flow.empty id "Welcome new leads" with
    status := .active
    description := some "Greets a lead on WhatsApp and records the greeting" }
  (((((((flow.addNode { id := "trigger", kind := "trigger.manual" }).addNode
    { id := "has_phone", kind := "logic.if",
      config := [("condition", .string "input.phone != null")] }).addNode
    { id := "greet", kind := "whatsapp.send",
      config := [
        ("template", .string "Hi \x7b\x7binput.name\x7d\x7d! Thanks for reaching out."),
        ("toPath", .string "phone")] }).addNode
    { id := "log", kind := "pb.create",
      config := [
        ("collection", .string "greetings"),
        ("data", .string "\x7b\"messageId\": \"\x7b\x7binput.providerMessageId\x7d\x7d\"\x7d")]
      }).connect "trigger" "has_phone").connectBranch "has_phone" "true" "greet").connect
    "greet" "log")

def exampleLines (output : String) : List String :=
  ["✨ Created example flow: " ++ output,
    "",
    "Run it with:",
    "  relay run --file " ++ output ++
      " --input '\x7b\"name\": \"Ada\", \"phone\": \"5511999999999\"\x7d'"]

def reportInit (flowId output : String) (files : Files) : Outcome × Files :=
  match files.write output (exampleFlow flowId).toJson.pretty with
  | .ok files => ({ said := exampleLines output }, files)
  | .error e => ({ error := some e.message }, files)

/-- Do what a command asks, among files and with an identifier for a new flow. -/
def report (wording : Wording) (environment : Environment) (flowId : String)
    (command : Command) (files : Files) : Outcome × Files :=
  match command with
  | .run options => (reportRun wording environment options (files.read? options.file), files)
  | .validate file => (reportValidate file (files.read? file), files)
  | .nodes => (reportNodes, files)
  | .init output => reportInit flowId output files

/-! ## Exit -/

def Outcome.code (outcome : Outcome) : Nat := if outcome.error.isSome then 1 else 0

def Refusal.code : Refusal → Nat
  | .usage => 2
  | .help => 0

def linesOf (text : String) : List String :=
  (Text.splitAt '\n' text).map fun line => Text.dropCarriageReturn line

def Outcome.lines (outcome : Outcome) : List String := outcome.said.flatMap linesOf

/-- The first line that an outcome has printed about its error. -/
def Outcome.errorLine (outcome : Outcome) : String :=
  match outcome.error with
  | some e => ((linesOf ("Error: " ++ e)).head?).getD ""
  | none => ""

end FlowEngine.CommandLine
