import FlowEngine.Store.Memory
/-!
# `FlowEngine.Workbench.Fault` — a record store that fails on purpose

A fault lies on one kind of call to one collection.  It takes hold before the store is touched, except
that a record without its identifier is stored all the same.  Of several faults on a call the first
takes hold.
-/

namespace FlowEngine.Workbench

/-- The kinds of call to a store. -/
inductive StoreCall where
  | list
  | getOne
  | create
  | update
deriving DecidableEq, Repr

/-- How a call fails. -/
inductive FaultKind where
  /-- The store cannot be reached. -/
  | unreachable
  /-- The record is said not to exist. -/
  | absent
  /-- A new record comes back without its identifier. -/
  | nameless
deriving DecidableEq, Repr

/-- A fault. -/
structure Fault where
  call : StoreCall
  collection : String
  kind : FaultKind
deriving DecidableEq, Repr

/-- The fault that takes hold of a call. -/
def faultOn (faults : List Fault) (call : StoreCall) (collection : String) : Option FaultKind :=
  (faults.find? fun f => f.call == call && f.collection == collection).map Fault.kind

/-- The error of a fault, if it is one that keeps a call from the store. -/
def FaultKind.error? (collection id : String) : FaultKind → Option StoreError
  | unreachable => some (.transport (.request "store" "connection refused"))
  | absent => some (.notFound collection id)
  | nameless => none

def blocked? (faults : List Fault) (call : StoreCall) (collection id : String) :
    Option StoreError :=
  (faultOn faults call collection).bind (FaultKind.error? collection id)

def withoutId : Json → Json
  | .object members => .object (members.filter fun pair => pair.1 != "id")
  | other => other

/-- The copy of a new record that is given back. -/
def givenBack (faults : List Fault) (collection : String) (record : Json) : Json :=
  if faultOn faults .create collection = some .nameless then withoutId record else record

end FlowEngine.Workbench
