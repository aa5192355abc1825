import FlowEngine.Api.Flows
import FlowEngine.Node.Trigger
/-!
# `FlowEngine.Api.Runs` — the requests that start and inspect runs

A run is started in the background and the queued run is the answer, unless the request wants to wait
for its end.  A hook starts a run of every active flow that listens on its path.
-/

namespace FlowEngine.Api

/-- What a request to start a run asks for. -/
structure StartRequest where
  input : Option Json := none
  testMode : Bool := false
  triggerType : Option TriggerType := none
  /-- The answer is to be the outcome. -/
  wait : Bool := false

def StartRequest.decode? (d : Document) : Option StartRequest := do
  let [input, testMode, triggerType, wait] ← d.fields?
    [["input"], ["testMode"], ["triggerType"], ["wait"]] | none
  let input ← Document.optional Document.value? input
  let testMode ← Document.defaulted false Document.bool? testMode
  let triggerType ← Document.optional TriggerType.decode? triggerType
  let wait ← Document.defaulted false Document.bool? wait
  some { input, testMode, triggerType, wait }

/-- What a request asks for; one whose body cannot be read asks for nothing in particular. -/
def StartRequest.ofRequest (request : Request) : StartRequest :=
  (request.document?.bind StartRequest.decode?).getD {}

def outcome : Except FlowError RunReport → Response
  | .error e => failure e
  | .ok report =>
    .ok 200 (.record [("run", report.run.toJson), ("data", report.data),
      ("executed", .array (report.executed.map .string))])

def startRun (engine : Engine) (id : String) (request : Request) : Program Response := do
  let wanted := StartRequest.ofRequest request
  match ← engine.settings.library.get? id with
  | .error e => return failure (.store e)
  | .ok none => return flowNotFound id
  | .ok (some flow) =>
    match ← Engine.startRun engine flow (wanted.triggerType.getD .manual)
        (wanted.input.getD (.object [])) wanted.testMode with
    | .error e => return failure e
    | .ok (run, task) =>
      if wanted.wait then return outcome (← Program.await task)
      else return .ok 202 run.toJson

/-- The latest runs of a flow. -/
def listRuns (engine : Engine) (flowId : String) : Program Response := do
  match ← Engine.listRuns engine flowId with
  | .error e => return failure e
  | .ok runs => return .ok 200 (.array (runs.map Run.toJson))

def getRun (engine : Engine) (id : String) : Program Response := do
  match ← Engine.getRun engine id with
  | .error e => return failure e
  | .ok run => return .ok 200 run.toJson

def listRunSteps (engine : Engine) (runId : String) : Program Response := do
  match ← Engine.listRunSteps engine runId with
  | .error e => return failure e
  | .ok steps => return .ok 200 (.array (steps.map RunStep.toJson))

/-! ## Hooks -/

/-- The path that a flow listens on, without slashes at its ends. -/
def hookPath? (flow : Flow) : Option String :=
  match flow.canvas.trigger? with
  | some node =>
    if node.kind = Trigger.webhookKind then
      ((Json.lookup "path" node.config).bind Json.text?).map (Text.trimChar '/')
    else none
  | none => none

/-- The data that a hook is called with; no body at all is an empty object. -/
def hookInput? (request : Request) : Option Json :=
  match request.body with
  | none => some (.object [])
  | some body => if body.text.isEmpty then some (.object []) else Json.parse? body.text

/-- Start a run of each of several flows; one that cannot be started is passed over. -/
def startAll (engine : Engine) (input : Json) : List Flow → Program (List String)
  | [] => return []
  | flow :: rest => do
    let started ← Engine.startRun engine flow .webhook input false
    let ids ← startAll engine input rest
    match started with
    | .ok (run, _) => return run.id :: ids
    | .error _ => return ids

/-- Start the flows that listen on a path. -/
def receiveHook (engine : Engine) (path : String) (request : Request) : Program Response := do
  let hook := Text.trimChar '/' path
  if !request.fits bodyLimit then return .tooLarge
  else
    match hookInput? request with
    | none => return .error 400 ("webhook body must be JSON: " ++ unreadableText)
    | some input =>
      match ← engine.settings.library.listActive with
      | .error e => return failure (.store e)
      | .ok flows =>
        let listeners := flows.filter fun flow => hookPath? flow == some hook
        if listeners.isEmpty then return .error 404 ("No active flow listens on /" ++ hook)
        else
          let ids ← startAll engine input listeners
          return .ok 202 (.object [("runs", .array (ids.map .string))])

end FlowEngine.Api
