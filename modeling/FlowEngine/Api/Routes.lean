import FlowEngine.Api.Runs
/-!
# `FlowEngine.Api.Routes` — which request is answered by what

A route is a method and a pattern of segments; a segment that stands for an identifier must not be
empty.  A request that fits no route is answered with 404.  The stream of events has a route too, but
is only opened by a handshake: a plain request for it cannot be read.
-/

namespace FlowEngine.Api

/-- What a request is for. -/
inductive Route where
  | health
  | listFlows
  | saveFlow
  | getFlow (id : String)
  | archiveFlow (id : String)
  | startRun (flowId : String)
  | listRuns (flowId : String)
  | getRun (id : String)
  | listRunSteps (runId : String)
  | hook (path : String)
  | events
  | nodeTypes
deriving DecidableEq, Repr

def flowRoute? (method : String) : List String → Option Route
  | [] =>
    if method = "GET" then some .listFlows
    else if method = "POST" then some .saveFlow
    else none
  | [id] =>
    if id.isEmpty then none
    else if method = "GET" then some (.getFlow (segmentText id))
    else if method = "DELETE" then some (.archiveFlow (segmentText id))
    else none
  | [id, "runs"] =>
    if id.isEmpty then none
    else if method = "GET" then some (.listRuns (segmentText id))
    else if method = "POST" then some (.startRun (segmentText id))
    else none
  | _ => none

def runRoute? (method : String) : List String → Option Route
  | [id] => if method = "GET" && !id.isEmpty then some (.getRun (segmentText id)) else none
  | [id, "steps"] =>
    if method = "GET" && !id.isEmpty then some (.listRunSteps (segmentText id)) else none
  | _ => none

/-- The route of a method and the segments behind the first slash. -/
def routeOf? (method : String) : List String → Option Route
  | ["health"] => if method = "GET" then some .health else none
  | "api" :: "flows" :: rest => flowRoute? method rest
  | "api" :: "runs" :: rest => runRoute? method rest
  | "api" :: "hooks" :: first :: rest =>
    if method = "POST" then
      some (.hook (segmentText (String.intercalate "/" (first :: rest))))
    else none
  | ["api", "events"] => if method = "GET" then some .events else none
  | ["api", "nodes"] => if method = "GET" then some .nodeTypes else none
  | _ => none

def Request.route? (request : Request) : Option Route :=
  match Text.splitAt '/' request.route with
  | "" :: segments => routeOf? request.method segments
  | _ => none

def healthy : Response :=
  .ok 200 (.record [("status", .string "healthy"), ("version", .string "0.1.0"),
    ("service", .string "relay")])

/-- What is shown of a node type. -/
def nodeType (registry : Registry) (kind : String) : Json :=
  let metadata := (registry.metadata? kind).getD ⟨"", ""⟩
  .record [("type", .string kind), ("description", .string metadata.description),
    ("category", .string metadata.category)]

def answer (engine : Engine) (request : Request) : Program Response :=
  match request.route? with
  | none => return .missing
  | some .health => return healthy
  | some .listFlows => listFlows engine
  | some .saveFlow => saveFlow engine request
  | some (.getFlow id) => getFlow engine id
  | some (.archiveFlow id) => archiveFlow engine id
  | some (.startRun flowId) => startRun engine flowId request
  | some (.listRuns flowId) => listRuns engine flowId
  | some (.getRun id) => getRun engine id
  | some (.listRunSteps runId) => listRunSteps engine runId
  | some (.hook path) => receiveHook engine path request
  | some .events => return .unreadable
  | some .nodeTypes =>
    return .ok 200 (.array (engine.registry.kinds.map (nodeType engine.registry)))

end FlowEngine.Api
