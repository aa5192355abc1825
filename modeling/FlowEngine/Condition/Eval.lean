import FlowEngine.Condition.Expr
import FlowEngine.Json.Basic
import FlowEngine.Text.Blank
/-!
# `FlowEngine.Condition.Eval` — what a condition says about a value

A condition is evaluated against one root value.  Paths lead from the root through objects and
arrays; a path that leads nowhere is null, except that a last segment `length` on an array or a text
is its size.  If one side of a comparison is a number and the other reads as one, both are compared
as floats; equality of floats is a distance below the machine epsilon.  Null equals only null and is
in no order with anything.
-/

namespace FlowEngine.Condition

open FlowEngine (Json)

/-- How many items an array or characters a text has. -/
def size? : Json → Option Nat
  | .array items => some items.length
  | .string s => some s.length
  | _ => none

/-- The value at the end of a path, or null. -/
def resolve (current : Json) : List String → Json
  | [] => current
  | segment :: rest =>
    match current.child? segment with
    | some next => resolve next rest
    | none =>
      if segment = "length" && rest.isEmpty then ((size? current).map Json.ofNat).getD .null
      else .null

def truthy : Json → Bool
  | .null => false
  | .bool b => b
  | .number n => n.toFloat != 0.0 && !n.toFloat.isNaN
  | .string s => !s.isEmpty
  | .array _ => true
  | .object _ => true

/-- The float that a number is or a text spells. -/
def asFloat? : Json → Option Float
  | .number n => some n.toFloat
  | .string s => Decimal.float? (Text.trim s)
  | _ => none

def isNumber : Json → Bool
  | .number _ => true
  | _ => false

/-- Both sides as floats, if one of them is a number and the other reads as one. -/
def floats? (left right : Json) : Option (Float × Float) :=
  if isNumber left || isNumber right then
    match asFloat? left, asFloat? right with
    | some x, some y => some (x, y)
    | _, _ => none
  else none

/-- The distance between one and the next float. -/
def epsilon : Float := 2.220446049250313e-16

/-- Floats compared, equality being a distance below the machine epsilon. -/
def compareFloats (x y : Float) : Comparison → Bool
  | .eq => (x - y).abs < epsilon
  | .ne => epsilon ≤ (x - y).abs
  | .gt => y < x
  | .lt => x < y
  | .ge => y ≤ x
  | .le => x ≤ y

def compareTexts (s t : String) : Comparison → Bool
  | .eq => s == t
  | .ne => s != t
  | .gt => decide (t < s)
  | .lt => decide (s < t)
  | .ge => !decide (s < t)
  | .le => !decide (t < s)

def compareValues (left right : Json) (op : Comparison) : Bool :=
  if left.isNull || right.isNull then
    let both := left.isNull && right.isNull
    match op with
    | .eq => both
    | .ne => !both
    | _ => false
  else match floats? left right with
    | some (x, y) => compareFloats x y op
    | none =>
      match left, right with
      | .string s, .string t => compareTexts s t op
      | _, _ =>
        match op with
        | .eq => left.same right
        | .ne => !left.same right
        | _ => false

/-- A float as a value; infinite ones and no number have none and are null. -/
def ofFloat (x : Float) : Json :=
  if x.isFinite then .number (.float x) else .null

def Expr.eval (root : Json) : Expr → Json
  | .null => .null
  | .bool b => .bool b
  | .number x => ofFloat x
  | .text s => .string s
  | .path segments => resolve root segments
  | .not e => .bool (!truthy (e.eval root))
  | .and left right => .bool (truthy (left.eval root) && truthy (right.eval root))
  | .or left right => .bool (truthy (left.eval root) || truthy (right.eval root))
  | .compare op left right => .bool (compareValues (left.eval root) (right.eval root) op)

def Expr.holds (e : Expr) (root : Json) : Bool := truthy (e.eval root)

end FlowEngine.Condition
