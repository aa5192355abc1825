import FlowEngine.Json.Printer
import FlowEngine.Text.Blank
import FlowEngine.Time.Timestamp
/-!
# `FlowEngine.Store.Order` — what stands before what

A sort is a list of fields separated by commas, each with `-` in front for the falling and `+` or
nothing for the rising order; the first field in which two records differ decides.  Null and absent
fields come first.  Numbers are ordered as floats, texts by code point unless both are moments,
truth values with false first; values of different kinds are ordered by their compact text.

Two moments are ordered by time and a moment and any other text by code point, so three texts may go
round in a circle: `2026-01-01T10:00:00-05:00` comes before `2026-01-01T11` and that before
`2026-01-01T12:00:00Z`, which is the earlier one of the two moments.  There is then no order to bring
the records into.
-/

namespace FlowEngine.Store

/-- A field to sort by. -/
structure SortKey where
  field : String
  descending : Bool
deriving DecidableEq, Repr

def SortKey.ofText (s : String) : SortKey :=
  match s.toList with
  | '-' :: rest => ⟨String.ofList rest, true⟩
  | '+' :: rest => ⟨String.ofList rest, false⟩
  | rest => ⟨String.ofList rest, false⟩

def sortKeys (sort : String) : List SortKey :=
  (((Text.splitAt ',' sort).map Text.trim).filter (!·.isEmpty)).map SortKey.ofText

/-- The order of two floats; no number is equal to everything. -/
def orderFloats (x y : Float) : Ordering :=
  if x < y then .lt else if y < x then .gt else .eq

def orderTexts (s t : String) : Ordering :=
  if s < t then .lt else if t < s then .gt else .eq

def orderBools : Bool → Bool → Ordering
  | false, true => .lt
  | true, false => .gt
  | _, _ => .eq

/-- The order of two values that are not null. -/
def orderValues : Json → Json → Ordering
  | .number m, .number n => orderFloats m.toFloat n.toFloat
  | .string s, .string t =>
    match Timestamp.parse? s, Timestamp.parse? t with
    | some x, some y => x.order y
    | _, _ => orderTexts s t
  | .bool a, .bool b => orderBools a b
  | x, y => orderTexts x.compact y.compact

/-- The order of two fields; null counts as absent. -/
def orderFields (x y : Option Json) : Ordering :=
  match x.filter (!·.isNull), y.filter (!·.isNull) with
  | none, none => .eq
  | none, some _ => .lt
  | some _, none => .gt
  | some x, some y => orderValues x y

def SortKey.order (key : SortKey) (x y : Json) : Ordering :=
  let rising := orderFields (x.get? key.field) (y.get? key.field)
  if key.descending then rising.swap else rising

def orderBy (keys : List SortKey) (x y : Json) : Ordering :=
  match keys with
  | [] => .eq
  | key :: rest =>
    match key.order x y with
    | .eq => orderBy rest x y
    | decided => decided

def comesBefore (keys : List SortKey) (x y : Json) : Bool := orderBy keys x y == .lt

end FlowEngine.Store
