/-!
# `FlowEngine.Decimal.Shortest` — the fewest decimal digits that read back as a given float

A finite nonzero double is `m · 2^q`.  The reals that round to it form an interval around it: half a
unit to either side, a quarter below when `m` is the least mantissa of its binade, the ends included
exactly when `m` is even.  `shortest` walks the decimal grids `10^k` from coarse to fine and stops at
the first one with a point in that interval.  If a grid has a point in the interval at all, one of
the two grid points around the value is in it, so only those two are looked at; of two hits the
nearer wins, and on an exact tie the caller's rule decides.
-/

namespace FlowEngine

/-- A decimal `coefficient · 10^exponent`. -/
structure Decimal where
  coefficient : Nat
  exponent : Int
deriving DecidableEq, Repr

/-- A positive double `mantissa · 2^exponent`; `narrowBelow` tells that its lower neighbour is only
half as far away as its upper one. -/
structure Dyadic where
  mantissa : Nat
  exponent : Int
  narrowBelow : Bool
deriving DecidableEq, Repr

namespace Dyadic

/-- The leading bit of a mantissa, which is not stored: `2^52`. -/
def hiddenBit : Nat := 0x10000000000000

/-- The magnitude of a finite double, read off its bits. -/
def ofBits (bits : Nat) : Dyadic :=
  let fraction : Nat := bits % hiddenBit
  let biased : Nat := bits / hiddenBit % 2048
  if biased = 0 then ⟨fraction, -1074, false⟩
  else ⟨hiddenBit + fraction, (biased : Int) - 1075, fraction == 0 && biased > 1⟩

/-- Four times the mantissa times a power of two, and the divisor that goes with it, measured in
steps of the grid `10^k`; `quarters / divisor` is the value. -/
def scale (d : Dyadic) (k : Int) : Nat × Nat :=
  let q := d.exponent - 2
  (Nat.pow 2 q.toNat * Nat.pow 10 (-k).toNat, Nat.pow 2 (-q).toNat * Nat.pow 10 k.toNat)

/-- Grid point `c · 10^k` rounds to the double. -/
def admits (d : Dyadic) (k : Int) (c : Nat) : Bool :=
  let (unit, divisor) := d.scale k
  let low := (4 * d.mantissa - (if d.narrowBelow then 1 else 2)) * unit
  let high := (4 * d.mantissa + 2) * unit
  let point := c * divisor
  if d.mantissa % 2 = 0 then low ≤ point && point ≤ high else low < point && point < high

/-- The better of the two grid points around the value, if one of them rounds to it. -/
def onGrid? (d : Dyadic) (tieToEven : Bool) (k : Int) : Option Nat :=
  let (unit, divisor) := d.scale k
  let value := 4 * d.mantissa * unit
  let below := value / divisor
  let above := below + 1
  match d.admits k below, d.admits k above with
  | true, true =>
    if 2 * value < (below + above) * divisor then some below
    else if (below + above) * divisor < 2 * value then some above
    else if tieToEven && below % 2 == 0 then some below
    else some above
  | true, false => some below
  | false, true => some above
  | false, false => none

/-- The first grid with a hit, from `10^k` on downwards. -/
def searchGrids (d : Dyadic) (tieToEven : Bool) : Nat → Int → Decimal
  | 0, k => ⟨d.mantissa, k⟩
  | fuel + 1, k =>
    match d.onGrid? tieToEven k with
    | some c => ⟨c, k⟩
    | none => searchGrids d tieToEven fuel (k - 1)

/-- The decimal of fewest digits that rounds to the double. -/
def shortest (d : Dyadic) (tieToEven : Bool) : Decimal :=
  let magnitude := (d.mantissa.log2 : Int) + 1 + d.exponent
  searchGrids d tieToEven 22 ((magnitude * 30103).fdiv 100000 + 1)

end Dyadic

end FlowEngine
