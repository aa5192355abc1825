import FlowEngine.Text.Letter.Ranges
/-!
# `FlowEngine.Text.Letter` — which characters may spell a name

A name of the condition language begins with a letter and goes on with letters and numerals of any
script.  Both classes are looked up in sorted tables of ranges by bisection.
-/

namespace FlowEngine.Text

/-- Bisection in the part `[low, high)` of a sorted table of ranges; `fuel` bounds the halvings. -/
def inRangesFrom (table : Array (Nat × Nat)) (n : Nat) : Nat → Nat → Nat → Bool
  | 0, _, _ => false
  | fuel + 1, low, high =>
    if low < high then
      let mid := (low + high) / 2
      match table[mid]? with
      | none => false
      | some (first, last) =>
        if n < first then inRangesFrom table n fuel low mid
        else if last < n then inRangesFrom table n fuel (mid + 1) high
        else true
    else false

def inRanges (table : Array (Nat × Nat)) (n : Nat) : Bool :=
  inRangesFrom table n (table.size.log2 + 2) 0 table.size

/-- A letter: the Unicode property `Alphabetic`. -/
def isLetter (c : Char) : Bool :=
  if c.toNat < 128 then c.isAlpha else inRanges alphabeticRanges c.toNat

/-- A letter or a numeral of any script. -/
def isLetterOrNumeral (c : Char) : Bool :=
  if c.toNat < 128 then c.isAlphanum
  else inRanges alphabeticRanges c.toNat || inRanges numericRanges c.toNat

end FlowEngine.Text
