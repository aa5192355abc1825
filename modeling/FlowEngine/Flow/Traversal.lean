import FlowEngine.Flow.Basic
/-!
# `FlowEngine.Flow.Traversal` — the order in which a canvas is walked

A walk is breadth-first and meets every node at most once, so it ends on any canvas, cyclic or not.
`Traversal` is the walk in the hands of a caller, who takes the next node with `next?` and, when that
node has done its work, queues its successors with `expand`.  `downstreamOrder` is the whole walk
from a node when every edge is followed.
-/

namespace FlowEngine

/-- A breadth-first walk: what has been met so far, and what of it is still to be visited. -/
structure Traversal where
  edges : List Edge
  visited : List String
  queue : List String

namespace Traversal

/-- The walk that has met its first node and not queued it. -/
def start (edges : List Edge) (id : String) : Traversal :=
  { edges, visited := [id], queue := [] }

/-- Queue a node, unless it has been met before. -/
def enqueue (t : Traversal) (id : String) : Traversal :=
  if t.visited.contains id then t
  else { t with visited := id :: t.visited, queue := t.queue ++ [id] }

/-- An edge leaves the node, and not by another branch than the one taken. -/
def follows (id : String) (branch : Option String) (edge : Edge) : Bool :=
  edge.source == id &&
    match branch, edge.sourceHandle with
    | some taken, some handle => taken == handle
    | _, _ => true

/-- Queue the successors of a node in the order of the edges. -/
def expand (t : Traversal) (id : String) (branch : Option String) : Traversal :=
  ((t.edges.filter (follows id branch)).map Edge.target).foldl enqueue t

def next? (t : Traversal) : Option (String × Traversal) :=
  match t.queue with
  | [] => none
  | id :: rest => some (id, { t with queue := rest })

/-- The nodes still to come when each is expanded by every edge. -/
def drain : Nat → Traversal → List String
  | 0, _ => []
  | fuel + 1, t =>
    match t.next? with
    | none => []
    | some (id, t) => id :: drain fuel (t.expand id none)

end Traversal

/-- The nodes that can be reached from a node, without the node itself, in breadth-first order.  A
node is queued at most once and only as the target of an edge, so there are no more nodes than
edges. -/
def downstreamOrder (id : String) (edges : List Edge) : List String :=
  Traversal.drain edges.length ((Traversal.start edges id).expand id none)

end FlowEngine
