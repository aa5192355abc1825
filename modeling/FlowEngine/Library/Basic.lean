import FlowEngine.Ledger.Record
import FlowEngine.Library.Record
import FlowEngine.Program
/-!
# `FlowEngine.Library.Basic` — the saved flows

The library is a collection of the record store.  Saving a flow under an identifier that is already
there replaces it and counts its version up; archiving changes its status and nothing else.
-/

namespace FlowEngine

/-- The collection in which flows are stored. -/
structure Library where
  collection : String := "flows"
deriving DecidableEq, Repr

namespace Library

def pageSize : UInt32 := 200

def get? (library : Library) (id : String) : Program (Except StoreError (Option Flow)) := do
  match ← Program.getOne library.collection id {} with
  | .ok record =>
    match Json.readRecord Flow.ofRecord? library.collection record with
    | .ok flow => return .ok (some flow)
    | .error e => return .error e
  | .error (.notFound _ _) => return .ok none
  | .error e => return .error e

/-- The query of one page, ordered by name. -/
def pageQuery (filter : Option String) (page : UInt32) : ListQuery :=
  { filter, sort := some "+name", limit := pageSize, page }

/-- The flows from some page on, behind those already read; the pages end with an empty one or when
as many flows have been read as there are. -/
def listFrom (library : Library) (filter : Option String) :
    Nat → UInt32 → List Flow → Program (Except StoreError (List Flow))
  | 0, _, read => return .ok read
  | fuel + 1, page, read => do
    match ← Program.list library.collection (pageQuery filter page) with
    | .error e => return .error e
    | .ok found =>
      match Json.readRecords Flow.ofRecord? library.collection found.items with
      | .error e => return .error e
      | .ok flows =>
        let read := read ++ flows
        if flows.isEmpty || found.total ≤ read.length then return .ok read
        else listFrom library filter fuel (page + 1) read

/-- How many pages can be told apart by their numbers. -/
def maxPages : Nat := 4294967296

/-- Every saved flow, ordered by name. -/
def list (library : Library) : Program (Except StoreError (List Flow)) :=
  library.listFrom none maxPages 1 []

def listActive (library : Library) : Program (Except StoreError (List Flow)) :=
  library.listFrom (some "status = \"active\"") maxPages 1 []

/-- The version that a flow gets when it is saved over another. -/
def nextVersion (existing : Option Flow) : UInt32 :=
  match existing with
  | some flow => flow.version + 1
  | none => 1

/-- The flow that is stored under the identifier of another. -/
def existing? (library : Library) (flow : Flow) : Program (Except StoreError (Option Flow)) :=
  if flow.id.isEmpty then return .ok none else library.get? flow.id

/-- Store a flow; the result has its version and the identifier that the store gives it. -/
def save (library : Library) (flow : Flow) : Program (Except StoreError Flow) := do
  match ← library.existing? flow with
  | .error e => return .error e
  | .ok existing =>
    let saved := { flow with version := nextVersion existing }
    if existing.isSome then
      match ← Program.update library.collection saved.id saved.toRecord with
      | .error e => return .error e
      | .ok _ => return .ok saved
    else
      match ← Program.create library.collection saved.toRecord with
      | .error e => return .error e
      | .ok created =>
        return .ok { saved with id := ((created.get? "id").bind Json.text?).getD saved.id }

/-- Archive a flow; false if there is none of this identifier. -/
def archive (library : Library) (id : String) : Program (Except StoreError Bool) := do
  match ← Program.update library.collection id
      (.object [("status", .string FlowStatus.archived.text)]) with
  | .ok _ => return .ok true
  | .error (.notFound _ _) => return .ok false
  | .error e => return .error e

end Library

end FlowEngine
