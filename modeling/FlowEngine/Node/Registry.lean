import FlowEngine.Node.Context
import FlowEngine.Text.Split
/-!
# `FlowEngine.Node.Registry` — which handler does the work of a node

A handler serves one type of node.  A type may also be a wildcard, `*.` and a suffix: it serves every
type that ends in this suffix behind its last point, unless a handler is registered for that very
type.  Of several handlers of one type the latest counts.
-/

namespace FlowEngine

/-- The work of one type of node. -/
structure Handler where
  kind : String
  metadata : NodeMetadata := {}
  execute : NodeContext → Program (Except NodeError NodeOutput)

/-- The handlers that are at hand, at most one for each type. -/
structure Registry where
  handlers : List Handler := []

namespace Registry

/-- Put in a handler; it takes the place of an earlier one of its type. -/
def register (registry : Registry) (handler : Handler) : Registry :=
  ⟨handler :: registry.handlers.filter fun h => h.kind != handler.kind⟩

def ofHandlers (handlers : List Handler) : Registry := handlers.foldl register {}

/-- The handler registered for this very type. -/
def named? (registry : Registry) (kind : String) : Option Handler :=
  registry.handlers.find? fun h => h.kind == kind

/-- The wildcard that serves a type. -/
def wildcard? (kind : String) : Option String :=
  (Text.cutLast? '.' kind).map fun (_, suffix) => "*." ++ suffix

/-- The handler that does the work of a type. -/
def resolve? (registry : Registry) (kind : String) : Option Handler :=
  match registry.named? kind with
  | some handler => some handler
  | none => (wildcard? kind).bind registry.named?

def contains (registry : Registry) (kind : String) : Bool := (registry.resolve? kind).isSome

def kinds (registry : Registry) : List String :=
  (registry.handlers.map Handler.kind).mergeSort fun s t => !decide (t < s)

def metadata? (registry : Registry) (kind : String) : Option NodeMetadata :=
  (registry.resolve? kind).map Handler.metadata

end Registry

end FlowEngine
