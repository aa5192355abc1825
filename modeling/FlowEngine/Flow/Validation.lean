import FlowEngine.Flow.Traversal
/-!
# `FlowEngine.Flow.Validation` — what a canvas must satisfy to be saved

Four conditions, checked in this order: no identifier repeats an earlier one, every edge joins two
nodes of the canvas, some node starts runs, and no edge closes a cycle.  The first that fails is
reported, at its first place.
-/

namespace FlowEngine

/-- Why a canvas cannot be run. -/
inductive CanvasError where
  | duplicateNode (id : String)
  | danglingEdge (source target : String)
  | missingTrigger
  | cyclicDependency
deriving DecidableEq, Repr

def CanvasError.message : CanvasError → String
  | duplicateNode id => "Duplicate node id: " ++ id
  | danglingEdge source target =>
    "Edge " ++ source ++ " -> " ++ target ++ " references an unknown node"
  | missingTrigger => "Canvas has no trigger node"
  | cyclicDependency => "Cyclic dependency detected"

/-- The first text of a list that repeats an earlier one; `seen` stands before the list. -/
def firstRepeat? (seen : List String) : List String → Option String
  | [] => none
  | id :: rest => if seen.contains id then some id else firstRepeat? (id :: seen) rest

namespace Canvas

def hasNode (canvas : Canvas) (id : String) : Bool := canvas.nodes.any fun node => node.id == id

/-- An edge without a node at one of its ends. -/
def isDangling (canvas : Canvas) (edge : Edge) : Bool :=
  !(canvas.hasNode edge.source && canvas.hasNode edge.target)

/-- A path leads from the end of the edge back to its beginning. -/
def closesCycle (canvas : Canvas) (edge : Edge) : Bool :=
  edge.source == edge.target || (downstreamOrder edge.target canvas.edges).contains edge.source

/-- The first condition that the canvas fails. -/
def validate (canvas : Canvas) : Except CanvasError Unit :=
  match firstRepeat? [] (canvas.nodes.map Node.id) with
  | some id => .error (.duplicateNode id)
  | none =>
    match canvas.edges.find? canvas.isDangling with
    | some edge => .error (.danglingEdge edge.source edge.target)
    | none =>
      if canvas.trigger?.isNone then .error .missingTrigger
      else if canvas.edges.any canvas.closesCycle then .error .cyclicDependency
      else .ok ()

end Canvas

end FlowEngine
