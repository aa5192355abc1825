import FlowEngine.Json.Document
/-!
# `FlowEngine.Json.Record` — reading records out of documents

A record has named fields in a fixed order, and a field may go by several names.  It is written as
an object, or as an array of its fields in that order, of which the last may be left out.  Members
that are no field are ignored, whatever they hold; a field that is written twice, under one name or
two, spoils the record.  A field may be required, optional (absent or null means none), or have a
default (absent means the default; null is a value like any other).
-/

namespace FlowEngine.Document

/-- Fill the place of the field that goes by a name; `none` if it is taken. -/
def fillField (name : String) (d : Document) :
    List (List String) → List (Option Document) → Option (List (Option Document))
  | names :: fields, place :: places =>
    if names.contains name then
      match place with
      | none => some (some d :: places)
      | some _ => none
    else (fillField name d fields places).map (place :: ·)
  | _, places => some places

def fillFields (fields : List (List String)) :
    List (Option String × Document) → List (Option Document) → Option (List (Option Document))
  | [], places => some places
  | (none, _) :: _, _ => none
  | (some name, d) :: members, places =>
    match fillField name d fields places with
    | some places => fillFields fields members places
    | none => none

/-- The fields of a record, each under its names, in order. -/
def fields? (fields : List (List String)) : Document → Option (List (Option Document))
  | object members => fillFields fields members (fields.map fun _ => none)
  | array items =>
    if items.length ≤ fields.length then
      some (items.map some ++ (fields.drop items.length).map fun _ => none)
    else none
  | literal _ => none

/-- The fields of a record that can be written as an object only. -/
def objectFields? (fields : List (List String)) : Document → Option (List (Option Document))
  | object members => fields? fields (object members)
  | _ => none

/-! ## Kinds of field -/

def isNull : Document → Bool
  | literal (some .null) => true
  | _ => false

/-- A field that must be there. -/
def required {α : Type} (read : Document → Option α) : Option Document → Option α
  | some d => read d
  | none => none

/-- A field that may be absent or null. -/
def optional {α : Type} (read : Document → Option α) : Option Document → Option (Option α)
  | none => some none
  | some d => if d.isNull then some none else (read d).map some

/-- A field that may be absent. -/
def defaulted {α : Type} (default : α) (read : Document → Option α) :
    Option Document → Option α
  | none => some default
  | some d => read d

/-! ## Kinds of value -/

def text? : Document → Option String
  | literal (some (.string s)) => some s
  | _ => none

def bool? : Document → Option Bool
  | literal (some (.bool b)) => some b
  | _ => none

/-- A whole number of 32 bits. -/
def word? : Document → Option UInt32
  | literal (some (.number (.integer n))) =>
    if 0 ≤ n && n < 4294967296 then some n.toNat.toUInt32 else none
  | _ => none

/-- The members of an object, each of which must have a value. -/
def members? : Document → Option Json.Members
  | object members => (memberValues? members).map Json.ordered
  | _ => none

def readAll {α : Type} (read : Document → Option α) : List Document → Option (List α)
  | [] => some []
  | d :: ds =>
    match read d, readAll read ds with
    | some x, some xs => some (x :: xs)
    | _, _ => none

def list? {α : Type} (read : Document → Option α) : Document → Option (List α)
  | array items => readAll read items
  | _ => none

/-- The name of one of several cases: a text, or an object of that one name with null. -/
def choice? : Document → Option String
  | literal (some (.string s)) => some s
  | object [(some name, d)] => if d.isNull then some name else none
  | _ => none

/-- A text that is blank in the sense of hosted stores, which write fields that are not set as empty
texts. -/
def isUnset (d : Document) : Bool :=
  match d with
  | literal (some (.string s)) => s.isEmpty
  | other => other.isNull

/-- A field that may be absent, null or an empty text. -/
def settable {α : Type} (read : Document → Option α) : Option Document → Option (Option α)
  | none => some none
  | some d => if d.isUnset then some none else (read d).map some

end FlowEngine.Document
