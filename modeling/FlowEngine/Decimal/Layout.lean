import FlowEngine.Decimal.Shortest
/-!
# `FlowEngine.Decimal.Layout` — how a float is laid out as text

The digits of a float are always the fewest that read back; a `Layout` fixes the rest: which powers
of ten are written out, what marks a whole number, and what happens on a tie.  Two layouts are in
use.  `Layout.json` is the form of numbers in data: `12.0`, `0.00001`, `1e+16`, `1.5e-7`.
`Layout.plain` is the form of numbers in messages: never an exponent and no trailing `.0`.
-/

namespace FlowEngine.Decimal

/-- The choices that turn a float into text. -/
structure Layout where
  /-- Of two equally near shortest decimals the one with the even last digit is taken. -/
  tieToEven : Bool
  /-- Powers of ten `[first, last)` of the leading digit that are written without an exponent;
  without bounds no exponent is ever written. -/
  positional : Option (Int × Int)
  /-- What follows the digits of a whole number. -/
  wholeMark : String

/-- Numbers in data: positional from `10^-5` up to below `10^16`, with at least one decimal. -/
def Layout.json : Layout := ⟨true, some (-5, 16), ".0"⟩

/-- Numbers in messages: always positional, whole numbers without a point. -/
def Layout.plain : Layout := ⟨false, none, ""⟩

/-- Digits with the decimal point after the first `point` of them. -/
def positionalText (wholeMark : String) (digits : List Char) (point : Int) : String :=
  if point ≤ 0 then
    String.ofList ('0' :: '.' :: List.replicate (-point).toNat '0' ++ digits)
  else
    let before := point.toNat
    if digits.length ≤ before then
      String.ofList (digits ++ List.replicate (before - digits.length) '0') ++ wholeMark
    else
      String.ofList (digits.take before ++ '.' :: digits.drop before)

/-- One digit, the other digits behind a point if there are any, and the exponent with its sign. -/
def scientificText (digits : List Char) (power : Int) : String :=
  let lead := String.ofList (digits.take 1)
  let rest := digits.drop 1
  let fraction := if rest.isEmpty then "" else "." ++ String.ofList rest
  let sign := if power < 0 then "-" else "+"
  lead ++ fraction ++ "e" ++ sign ++ toString power.natAbs

def Layout.magnitude (layout : Layout) (d : Decimal) : String :=
  let digits := (toString d.coefficient).toList
  let point := (digits.length : Int) + d.exponent
  match layout.positional with
  | none => positionalText layout.wholeMark digits point
  | some (first, last) =>
    if first ≤ point - 1 && point - 1 < last then positionalText layout.wholeMark digits point
    else scientificText digits (point - 1)

/-- The bit of the sign: `2^63`. -/
def signBit : Nat := 0x8000000000000000

def Layout.textOfBits (layout : Layout) (bits : Nat) : String :=
  let sign := if bits / signBit % 2 = 1 then "-" else ""
  let payload := bits % signBit
  if payload = 0 then sign ++ "0" ++ layout.wholeMark
  else if payload = 0x7ff0000000000000 then sign ++ "inf"
  else if 0x7ff0000000000000 < payload then "NaN"
  else sign ++ layout.magnitude ((Dyadic.ofBits payload).shortest layout.tieToEven)

def Layout.text (layout : Layout) (x : Float) : String :=
  layout.textOfBits x.toBits.toNat

end FlowEngine.Decimal
