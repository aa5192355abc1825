import FlowEngine.Decimal.Layout
import FlowEngine.Decimal.Reading
/-!
# `FlowEngine.Json.Basic` — the data that flows through a run

Everything a flow handles — node configurations, event data, stored records — is a `Json` value.  A
number is a whole number or a float, and the two never are the same value: `1` and `1.0` differ in
text and in structural comparison.  The members of an object are kept in the order of their names by
code point, one value per name; `insert` keeps that order, and `record` brings any list of members
into it, the last value of a name winning.
-/

namespace FlowEngine

/-- A number: whole, or a float. -/
inductive Number where
  | integer (n : Int)
  | float (x : Float)

/-- A value of the data that flows through a run. -/
inductive Json where
  | null
  | bool (b : Bool)
  | number (n : Number)
  | string (s : String)
  | array (items : List Json)
  | object (members : List (String × Json))

namespace Number

def toFloat : Number → Float
  | integer n => Decimal.nearest (n < 0) n.natAbs 0
  | float x => x

/-- Whole numbers with whole numbers, floats with floats. -/
def same : Number → Number → Bool
  | integer m, integer n => m == n
  | float x, float y => x == y
  | _, _ => false

def text : Number → String
  | integer n => toString n
  | float x => Decimal.Layout.json.text x

end Number

namespace Json

/-! ## Objects -/

abbrev Members := List (String × Json)

def lookup (name : String) : Members → Option Json
  | [] => none
  | (key, value) :: rest => if key = name then some value else lookup name rest

/-- Set the value of a name, keeping the names in order. -/
def insert (name : String) (value : Json) : Members → Members
  | [] => [(name, value)]
  | (key, old) :: rest =>
    if name = key then (name, value) :: rest
    else if name < key then (name, value) :: (key, old) :: rest
    else (key, old) :: insert name value rest

/-- Members in order, the last value of a name winning. -/
def ordered (members : Members) : Members :=
  members.foldl (fun kept (name, value) => insert name value kept) []

def record (members : Members) : Json := .object (ordered members)

/-- The member of an object; other values have none. -/
def get? (name : String) : Json → Option Json
  | .object members => lookup name members
  | _ => none

/-- The value that one segment of a path leads to: a member by its name, an item by its position. -/
def child? (segment : String) : Json → Option Json
  | .object members => lookup segment members
  | .array items => (Text.index? segment).bind fun i => items[i]?
  | _ => none

/-! ## Views -/

def isNull : Json → Bool
  | .null => true
  | _ => false

def text? : Json → Option String
  | .string s => some s
  | _ => none

def members? : Json → Option Members
  | .object members => some members
  | _ => none

def natural? : Json → Option Nat
  | .number (.integer n) => if 0 ≤ n then some n.toNat else none
  | _ => none

def ofNat (n : Nat) : Json := .number (.integer n)

/-- A text, or null if there is none. -/
def ofText? : Option String → Json
  | some s => .string s
  | none => .null

/-! ## Structural equality -/

mutual

/-- Equality of structure; floats are compared as floats. -/
def same : Json → Json → Bool
  | .null, .null => true
  | .bool a, .bool b => a == b
  | .number m, .number n => m.same n
  | .string s, .string t => s == t
  | .array xs, .array ys => sameItems xs ys
  | .object xs, .object ys => sameMembers xs ys
  | _, _ => false

def sameItems : List Json → List Json → Bool
  | [], [] => true
  | x :: xs, y :: ys => same x y && sameItems xs ys
  | _, _ => false

def sameMembers : Members → Members → Bool
  | [], [] => true
  | (a, x) :: xs, (b, y) :: ys => a == b && same x y && sameMembers xs ys
  | _, _ => false

end

end Json

end FlowEngine
