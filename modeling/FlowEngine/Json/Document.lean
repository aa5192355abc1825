import FlowEngine.Json.Basic
/-!
# `FlowEngine.Json.Document` — data as it is written

A text of data carries more than its value: members stand in the order of writing and may repeat,
and a literal may be well formed and yet denote nothing — a number beyond the float range, a text
with half of a surrogate pair, a value nested deeper than is admitted.  Such a literal matters only
to those who ask for its value: a part of a document that is ignored may hold one.  `value?` is the
value of a whole document, `ofJson` the document of a value.
-/

namespace FlowEngine

/-- Data as written. -/
inductive Document where
  | literal (value : Option Json)
  | array (items : List Document)
  | object (members : List (Option String × Document))

namespace Document

mutual

/-- The value of a document, if every part of it has one. -/
def value? : Document → Option Json
  | literal value => value
  | array items => (values? items).map Json.array
  | object members => (memberValues? members).map Json.record

def values? : List Document → Option (List Json)
  | [] => some []
  | d :: ds =>
    match value? d, values? ds with
    | some v, some vs => some (v :: vs)
    | _, _ => none

def memberValues? : List (Option String × Document) → Option Json.Members
  | [] => some []
  | (name, d) :: ds =>
    match name, value? d, memberValues? ds with
    | some n, some v, some vs => some ((n, v) :: vs)
    | _, _, _ => none

end

mutual

def ofJson : Json → Document
  | .array items => array (ofItems items)
  | .object members => object (ofMembers members)
  | .null => literal (some .null)
  | .bool b => literal (some (.bool b))
  | .number n => literal (some (.number n))
  | .string s => literal (some (.string s))

def ofItems : List Json → List Document
  | [] => []
  | x :: xs => ofJson x :: ofItems xs

def ofMembers : Json.Members → List (Option String × Document)
  | [] => []
  | (name, x) :: xs => (some name, ofJson x) :: ofMembers xs

end

end Document

end FlowEngine
