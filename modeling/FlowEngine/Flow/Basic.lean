import FlowEngine.Json.Basic
import FlowEngine.Text.Split
/-!
# `FlowEngine.Flow.Basic` — flows, canvases, nodes and edges

A flow is what its author draws: a canvas of nodes, each of some type and with a configuration, and
of directed edges between them.  A node whose type begins with `trigger.` starts runs; the first such
node in canvas order is the one a run begins at.  An edge may carry a handle, the name of the branch
it belongs to.  Nothing here forbids cycles, repeated identifiers or edges that lead nowhere; what a
canvas must satisfy to be saved is in `FlowEngine.Flow.Validation`.
-/

namespace FlowEngine

/-- A directed connection between two nodes. -/
structure Edge where
  id : Option String := none
  source : String
  target : String
  /-- The branch of the source that the edge belongs to. -/
  sourceHandle : Option String := none
deriving DecidableEq, Repr

/-- A node of a canvas. -/
structure Node where
  id : String
  /-- The node type, such as `pb.find` or `trigger.cron`. -/
  kind : String
  config : Json.Members := []

/-- The nodes and edges of a flow. -/
structure Canvas where
  nodes : List Node := []
  edges : List Edge := []

/-- Where a flow stands in its life. -/
inductive FlowStatus where
  | draft
  | active
  | archived
deriving DecidableEq, Repr

/-- A flow as its author saved it. -/
structure Flow where
  id : String
  name : String
  description : Option String := none
  version : UInt32 := 1
  status : FlowStatus := .draft
  canvas : Canvas := {}

/-- What the types of all nodes that start runs begin with. -/
def Node.triggerStart : String := "trigger."

def Node.isTrigger (node : Node) : Bool := Text.startsWith Node.triggerStart node.kind

namespace Canvas

def find? (canvas : Canvas) (id : String) : Option Node :=
  canvas.nodes.find? fun node => node.id == id

/-- The nodes that start runs, in canvas order. -/
def triggers (canvas : Canvas) : List Node := canvas.nodes.filter Node.isTrigger

/-- The node that a run begins at. -/
def trigger? (canvas : Canvas) : Option Node := canvas.triggers.head?

end Canvas

namespace Flow

/-- The flow runs on its own triggers. -/
def isActive (flow : Flow) : Bool := flow.status == .active

/-- A new draft without nodes. -/
def empty (id name : String) : Flow := { id, name }

def addNode (flow : Flow) (node : Node) : Flow :=
  { flow with canvas := { flow.canvas with nodes := flow.canvas.nodes ++ [node] } }

def addEdge (flow : Flow) (edge : Edge) : Flow :=
  { flow with canvas := { flow.canvas with edges := flow.canvas.edges ++ [edge] } }

def connect (flow : Flow) (source target : String) : Flow :=
  flow.addEdge { source, target }

/-- The flow with one more edge, taken when the source reports a branch. -/
def connectBranch (flow : Flow) (source handle target : String) : Flow :=
  flow.addEdge { source, target, sourceHandle := some handle }

end Flow

end FlowEngine
