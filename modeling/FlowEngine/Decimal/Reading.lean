import FlowEngine.Text.Numeral
import FlowEngine.Text.Split
/-!
# `FlowEngine.Decimal.Reading` — floats read from text

Two rules are in use.  `float?` reads the spelling that configuration values, conditions and record
fields admit, and rounds the exact decimal to the nearest float.  `scaled?` is the rule of numbers in
data: a significand of at most 64 bits is taken to the nearest float and then multiplied or divided
by a power of ten, so a result may be off by a unit in the last place, and one beyond the float range
has no value.
-/

namespace FlowEngine.Decimal

/-- The float nearest to `±coefficient · 10^exponent`; infinite beyond the range. -/
def nearest (negative : Bool) (coefficient : Nat) (exponent : Int) : Float :=
  let size := ((toString coefficient).length : Int) + exponent
  let magnitude : Float :=
    if coefficient = 0 || size < -400 then 0.0
    else if 400 < size then 1.0 / 0.0
    else if exponent < 0 then Float.ofScientific coefficient true exponent.natAbs
    else Float.ofScientific (coefficient * Nat.pow 10 exponent.natAbs) false 0
  if negative then -magnitude else magnitude

/-- An exponent: an optional sign and at least one digit, and nothing else. -/
def exponent? (cs : List Char) : Option Int :=
  match cs with
  | '+' :: ds => (Text.natural? ds).map fun n => (n : Int)
  | '-' :: ds => (Text.natural? ds).map fun n => -(n : Int)
  | ds => (Text.natural? ds).map fun n => (n : Int)

/-- Digits with an optional point among them and an optional exponent; at least one digit. -/
def unsigned? (negative : Bool) (cs : List Char) : Option Float :=
  let whole := cs.takeWhile Char.isDigit
  let rest := cs.dropWhile Char.isDigit
  let (fraction, rest) : List Char × List Char := match rest with
    | '.' :: more => (more.takeWhile Char.isDigit, more.dropWhile Char.isDigit)
    | other => ([], other)
  if whole.isEmpty && fraction.isEmpty then none
  else
    let coefficient := Text.digitsValue (whole ++ fraction)
    let shift := (fraction.length : Int)
    match rest with
    | [] => some (nearest negative coefficient (-shift))
    | c :: more =>
      if c = 'e' || c = 'E' then
        (exponent? more).map fun e => nearest negative coefficient (e - shift)
      else none

/-- A number without its sign, or one of the names of infinity and of no number. -/
def magnitude? (negative : Bool) (cs : List Char) : Option Float :=
  let name := cs.map Char.toLower
  if name = "inf".toList || name = "infinity".toList then
    some (if negative then -(1.0 / 0.0) else 1.0 / 0.0)
  else if name = "nan".toList then some (0.0 / 0.0)
  else unsigned? negative cs

/-- A float: an optional sign, then digits with an optional point and exponent, or `inf`,
`infinity` or `nan` in any case. -/
def float? (s : String) : Option Float :=
  match s.toList with
  | '+' :: cs => magnitude? false cs
  | '-' :: cs => magnitude? true cs
  | cs => magnitude? false cs

/-- The binary form of a float that was read from a text: what is no number keeps the sign that it was
written with. -/
def bitsOf (s : String) (x : Float) : UInt64 :=
  if x.isNaN && Text.startsWith "-" s then x.toBits ||| 0x8000000000000000 else x.toBits

/-- `x · 10^exponent` by one multiplication or division, or none beyond the range; exponents below
`-308` are taken off in steps of 308. -/
def scaleBy? : Nat → Float → Int → Option Float
  | 0, _, _ => some 0.0
  | fuel + 1, x, exponent =>
    if exponent.natAbs ≤ 308 then
      let power := Float.ofScientific (Nat.pow 10 exponent.natAbs) false 0
      if exponent < 0 then some (x / power)
      else if (x * power).isInf then none
      else some (x * power)
    else if x == 0.0 then some x
    else if 0 ≤ exponent then none
    else scaleBy? fuel (x / Float.ofScientific (Nat.pow 10 308) false 0) (exponent + 308)

/-- The float that a significand and a power of ten stand for in data. -/
def scaled? (negative : Bool) (significand : Nat) (exponent : Int) : Option Float :=
  (scaleBy? 8 (Float.ofScientific significand false 0) exponent).map fun x =>
    if negative then -x else x

end FlowEngine.Decimal
