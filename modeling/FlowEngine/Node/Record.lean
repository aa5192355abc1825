import FlowEngine.Node.Registry
/-!
# `FlowEngine.Node.Record` — nodes that read and write records

Four nodes over the record store: a page of a collection, one record by its identifier or by a
filter, a new record, and a changed one.  The data of a record may be given as an object or as the
text of one.
-/

namespace FlowEngine.RecordNode

/-- The relations to expand and the fields to keep that a node asks for. -/
def fetchOptions (ctx : NodeContext) : FetchOptions :=
  { expand := ctx.text? "expand", fields := ctx.text? "fields" }

def recordData (ctx : NodeContext) : Except NodeError Json :=
  match ctx.document? "data" with
  | .error e => .error e
  | .ok (some (.object members)) => .ok (.object members)
  | .ok (some other) => .error (.invalidConfig "data" ("expected an object, got " ++ other.compact))
  | .ok none => .error (.missingConfig "data")

def pageQuery (ctx : NodeContext) : Except NodeError (String × ListQuery) := do
  let collection ← ctx.requireText "collection"
  let limit ← ctx.count "limit" 50
  let page ← ctx.count "page" 1
  return (collection,
    { filter := ctx.text? "filter", sort := ctx.text? "sort", limit, page,
      expand := ctx.text? "expand", fields := ctx.text? "fields" })

def executeFind (ctx : NodeContext) : Program (Except NodeError NodeOutput) := do
  match pageQuery ctx with
  | .error e => return .error e
  | .ok (collection, query) =>
    match ← Program.list collection query with
    | .error e => return .error (.store e)
    | .ok page =>
      ctx.notify (.info ("Found " ++ toString page.total ++ " record(s) in " ++ collection ++
        " (" ++ toString page.items.length ++ " on this page)"))
      return .ok { output := .record [("records", .array page.items),
        ("count", .ofNat page.total)] }

/-- The output of a node that looked for one record. -/
def found : Option Json → NodeOutput
  | some record => { output := .record [("record", record), ("exists", .bool true)] }
  | none => { output := .record [("record", .null), ("exists", .bool false)] }

def executeGetOne (ctx : NodeContext) : Program (Except NodeError NodeOutput) := do
  match ctx.requireText "collection" with
  | .error e => return .error e
  | .ok collection =>
    match ctx.text? "recordId", ctx.text? "filter" with
    | some id, _ =>
      match ← Program.getOne collection id (fetchOptions ctx) with
      | .error e => return .error (.store e)
      | .ok record => return .ok (found (some record))
    | none, none => return .error .missingSelector
    | none, some filter =>
      let options := fetchOptions ctx
      let query : ListQuery :=
        { filter := some filter, limit := 1, expand := options.expand, fields := options.fields }
      match ← Program.list collection query with
      | .error e => return .error (.store e)
      | .ok page => return .ok (found page.items.head?)

/-- What a node makes of the store's answer to a write. -/
def written : Except StoreError Json → Except NodeError NodeOutput
  | .error e => .error (.store e)
  | .ok record => .ok { output := .record [("record", record)] }

def executeCreate (ctx : NodeContext) : Program (Except NodeError NodeOutput) := do
  match ctx.requireText "collection", recordData ctx with
  | .error e, _ => return .error e
  | _, .error e => return .error e
  | .ok collection, .ok data => return written (← Program.create collection data)

def executeUpdate (ctx : NodeContext) : Program (Except NodeError NodeOutput) := do
  match ctx.requireText "collection", ctx.requireText "id", recordData ctx with
  | .error e, _, _ => return .error e
  | _, .error e, _ => return .error e
  | _, _, .error e => return .error e
  | .ok collection, .ok id, .ok data => return written (← Program.update collection id data)

def handler (kind description : String)
    (execute : NodeContext → Program (Except NodeError NodeOutput)) : Handler :=
  { kind, metadata := { description, category := "records" }, execute }

def find : Handler := handler "pb.find" "List records of a collection" executeFind

def getOne : Handler := handler "pb.getOne" "Fetch a single record by id or filter" executeGetOne

def create : Handler := handler "pb.create" "Create a record" executeCreate

def update : Handler := handler "pb.update" "Update a record by id" executeUpdate

end FlowEngine.RecordNode
