import FlowEngine.Condition.Eval
import FlowEngine.Error
import FlowEngine.Store.Query
import FlowEngine.Store.Sorting
/-!
# `FlowEngine.Store.Memory` — the record store in memory

A store is a list of collections, each a list of records in the order of their creation, with a count
of the updates of each collection, a supply of identifiers for records that come without one, and a
way to sort what is listed.  Filters are conditions with the record itself as the root.  A call that fails leaves the collections
and the counts as they were.
-/

namespace FlowEngine

/-- A record store in memory. -/
structure MemoryStore where
  /-- The records of each collection in the order of their creation. -/
  collections : List (String × List Json) := []
  /-- How many updates each collection has had. -/
  updates : List (String × Nat) := []
  /-- How many identifiers have been given out. -/
  issued : Nat := 0
  /-- The n-th identifier to be given out, counted from one. -/
  supply : Nat → String := fun n => "<id:" ++ toString n ++ ">"
  sorting : Store.Sorting := .insertion

namespace MemoryStore

def valueOf {α : Type} (name : String) : List (String × α) → Option α
  | [] => none
  | (key, value) :: rest => if key = name then some value else valueOf name rest

/-- The list of pairs with another value under a name; a new name goes to the end. -/
def setValue {α : Type} (name : String) (value : α) : List (String × α) → List (String × α)
  | [] => [(name, value)]
  | (key, old) :: rest =>
    if key = name then (name, value) :: rest else (key, old) :: setValue name value rest

/-- The records of a collection; an unknown collection is empty. -/
def records (store : MemoryStore) (collection : String) : List Json :=
  (valueOf collection store.collections).getD []

def updateCount (store : MemoryStore) (collection : String) : Nat :=
  (valueOf collection store.updates).getD 0

def setRecords (store : MemoryStore) (collection : String) (records : List Json) : MemoryStore :=
  { store with collections := setValue collection records store.collections }

/-- The next identifier, and the store that has given it out. -/
def issue (store : MemoryStore) : String × MemoryStore :=
  (store.supply (store.issued + 1), { store with issued := store.issued + 1 })

def hasId (id : String) (record : Json) : Bool :=
  match record.get? "id" with
  | some (.string s) => s == id
  | _ => false

/-- Put a record into a collection as it is; an object without an identifier gets one. -/
def seed (store : MemoryStore) (collection : String) (record : Json) : MemoryStore :=
  let (record, store) := match record with
    | .object members =>
      if (Json.lookup "id" members).isSome then (record, store)
      else
        let (id, store) := store.issue
        (.object (Json.insert "id" (.string id) members), store)
    | other => (other, store)
  store.setRecords collection (store.records collection ++ [record])

/-- The fields of a record that a list of names keeps; without a list all are kept. -/
def project (fields : Option String) (record : Json) : Json :=
  match fields.bind Text.nonBlank?, record with
  | some names, .object members =>
    .record (((Text.splitAt ',' names).map Text.trim).filterMap fun name =>
      (Json.lookup name members).map fun value => (name, value))
  | _, _ => record

/-- The condition of a filter; a blank one has none. -/
def condition (filter : Option String) : Except StoreError (Option Condition.Expr) :=
  match filter.bind Text.nonBlank? with
  | none => .ok none
  | some text =>
    match Condition.parse text with
    | .ok e => .ok (some e)
    | .error e => .error (.invalidFilter text e.message)

def select (store : MemoryStore) (collection : String) (condition : Option Condition.Expr)
    (sort : Option String) : List Json :=
  let matching := (store.records collection).filter fun r =>
    (condition.map fun e => e.holds r).getD true
  match sort with
  | some keys => store.sorting.sort (Store.sortKeys keys) matching
  | none => matching

/-- The items of one page; a limit or page of zero counts as one. -/
def pageOf (limit page : UInt32) (records : List Json) : List Json :=
  let size := max limit.toNat 1
  (records.drop ((max page.toNat 1 - 1) * size)).take size

def list (store : MemoryStore) (collection : String) (query : ListQuery) :
    Except StoreError RecordPage :=
  match condition query.filter with
  | .error e => .error e
  | .ok condition =>
    let matching := store.select collection condition query.sort
    .ok ⟨(pageOf query.limit query.page matching).map (project query.fields), matching.length⟩

def getOne (store : MemoryStore) (collection id : String) (options : FetchOptions) :
    Except StoreError Json :=
  match (store.records collection).find? (hasId id) with
  | some record => .ok (project options.fields record)
  | none => .error (.notFound collection id)

/-- The identifier that a record asks for: a text that is not empty. -/
def requestedId? (members : Json.Members) : Option String :=
  match Json.lookup "id" members with
  | some (.string id) => if id.isEmpty then none else some id
  | _ => none

/-- Add a record at the end of a collection, under the identifier it asks for or a new one. -/
def create (store : MemoryStore) (collection : String) (data : Json) :
    Except StoreError Json × MemoryStore :=
  match data with
  | .object members =>
    let (id, store) := match requestedId? members with
      | some id => (id, store)
      | none => store.issue
    let record := Json.object (Json.insert "id" (.string id) members)
    if (store.records collection).any (hasId id) then
      (.error (.malformed collection ("id " ++ id ++ " is already taken")), store)
    else (.ok record, store.setRecords collection (store.records collection ++ [record]))
  | _ => (.error (.malformed collection "record data must be an object"), store)

/-- Lay the members of a patch over a record; the identifier stays. -/
def overlay (patch : Json.Members) (record : Json) : Json :=
  match record with
  | .object members =>
    .object (patch.foldl
      (fun kept (name, value) => if name = "id" then kept else Json.insert name value kept)
      members)
  | other => other

/-- The first record of an identifier changed, and the others as they were. -/
def changeFirst (id : String) (change : Json → Json) : List Json → List Json
  | [] => []
  | record :: rest =>
    if hasId id record then change record :: rest else record :: changeFirst id change rest

def update (store : MemoryStore) (collection id : String) (data : Json) :
    Except StoreError Json × MemoryStore :=
  match data with
  | .object patch =>
    match (store.records collection).find? (hasId id) with
    | none => (.error (.notFound collection id), store)
    | some record =>
      let store := store.setRecords collection
        (changeFirst id (overlay patch) (store.records collection))
      (.ok (overlay patch record),
        { store with
          updates := setValue collection (store.updateCount collection + 1) store.updates })
  | _ => (.error (.malformed collection "update data must be an object"), store)

end MemoryStore

end FlowEngine
