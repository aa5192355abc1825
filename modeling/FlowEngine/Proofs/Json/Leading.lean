import FlowEngine.Proofs.Decimal.Float
import Mathlib.Data.String.Basic
/-!
# `FlowEngine.Proofs.Json.Leading` — what kind of value a compact text begins

The first character of a compact text tells what kind of value it is the text of: a quote begins a
text, a digit or a minus a number, brackets and braces an array and an object, and the letters of
their names the truth values.  The ranges of these characters do not overlap, so values of different
kinds are ordered by their kinds (`compact_lt_compact`).

Among floats this holds of the finite ones only; there are no others in data.
-/

namespace FlowEngine

def Number.isFinite : Number → Bool
  | .integer _ => true
  | .float x => x.isFinite

theorem Number.isNaN_toFloat {n : Number} (h : n.isFinite = true) : n.toFloat.isNaN = false := by
  cases n with
  | integer n => exact Decimal.isNaN_nearest ..
  | float x => exact Decimal.isNaN_of_isFinite h

/-- The text begins with a character of the range. -/
def Begins (low high : Nat) (s : String) : Prop :=
  ∃ c cs, s.toList = c :: cs ∧ low ≤ c.toNat ∧ c.toNat ≤ high

theorem Begins.append {low high : Nat} {s : String} (h : Begins low high s) (t : String) :
    Begins low high (s ++ t) := by
  obtain ⟨c, cs, hs, hrange⟩ := h
  exact ⟨c, cs ++ t.toList, by rw [String.toList_append, hs, List.cons_append], hrange⟩

theorem Begins.lt {low high low' high' : Nat} {s t : String} (hs : Begins low high s)
    (ht : Begins low' high' t) (hapart : high < low') : s < t := by
  obtain ⟨c, cs, hs, -, hc⟩ := hs
  obtain ⟨d, ds, ht, hd, -⟩ := ht
  rw [String.lt_iff_toList_lt, hs, ht]
  have hcd : c < d := Char.lt_def.mpr (UInt32.lt_iff_toNat_lt.mpr
    (Nat.lt_of_le_of_lt hc (Nat.lt_of_lt_of_le hapart hd)))
  exact List.Lex.rel hcd

namespace Decimal

/-- The text begins as a number does: with a digit or a minus. -/
abbrev BeginsNumber (s : String) : Prop := Begins 45 57 s

theorem beginsNumber_digit {c : Char} (h : c.isDigit = true) (cs : List Char) :
    BeginsNumber (String.ofList (c :: cs)) := by
  refine ⟨c, cs, String.toList_ofList, ?_⟩
  rw [Char.isDigit, Bool.and_eq_true, decide_eq_true_eq, decide_eq_true_eq] at h
  obtain ⟨hlow, hhigh⟩ := h
  rw [ge_iff_le, UInt32.le_iff_toNat_le] at hlow
  rw [UInt32.le_iff_toNat_le] at hhigh
  exact ⟨Nat.le_trans (by decide) hlow, hhigh⟩

theorem beginsNumber_minus (s : String) : BeginsNumber ("-" ++ s) :=
  Begins.append ⟨'-', [], by decide, by decide, by decide⟩ s

theorem digits_eq_cons (n : Nat) :
    ∃ c cs, (toString n).toList = c :: cs ∧ c.isDigit = true := by
  have hdigits : (toString n).toList = Nat.toDigits 10 n := Nat.toList_repr
  cases h : Nat.toDigits 10 n with
  | nil => exact absurd h Nat.toDigits_ne_nil
  | cons c cs =>
      refine ⟨c, cs, hdigits.trans h, ?_⟩
      exact Nat.isDigit_of_mem_toDigits (b := 10) (n := n) (by decide) (by decide)
        (h ▸ List.mem_cons_self ..)

theorem beginsNumber_natural (n : Nat) : BeginsNumber (toString n) := by
  obtain ⟨c, cs, hdigits, hc⟩ := digits_eq_cons n
  have hbegins := beginsNumber_digit hc cs
  rwa [← hdigits, String.ofList_toList] at hbegins

theorem beginsNumber_integer (n : Int) : BeginsNumber (toString n) := by
  cases n with
  | ofNat n => exact beginsNumber_natural n
  | negSucc n => exact beginsNumber_minus _

/-- A decimal begins with its first digit, or with a zero in front of the point. -/
theorem beginsNumber_magnitude (layout : Layout) (d : Decimal) :
    BeginsNumber (layout.magnitude d) := by
  obtain ⟨c, cs, hdigits, hc⟩ := digits_eq_cons d.coefficient
  have hpositional : ∀ point, BeginsNumber (positionalText layout.wholeMark (c :: cs) point) := by
    intro point
    simp only [positionalText]
    split
    · exact beginsNumber_digit (by decide) _
    split
    · exact (beginsNumber_digit hc _).append _
    · next hpoint _ =>
        obtain ⟨k, hk⟩ : ∃ k, point.toNat = k + 1 := ⟨point.toNat - 1, by omega⟩
        rw [hk]
        exact beginsNumber_digit hc _
  have hscientific : ∀ power, BeginsNumber (scientificText (c :: cs) power) := by
    intro power
    unfold scientificText
    exact ((((beginsNumber_digit hc _).append _).append _).append _).append _
  simp only [Layout.magnitude, hdigits]
  split
  · exact hpositional _
  split
  · exact hpositional _
  · exact hscientific _

/-- In the bits of a finite float, the exponent is not all ones. -/
theorem payload_lt {x : Float} (h : x.isFinite = true) :
    x.toBits.toNat % signBit < 0x7ff0000000000000 := by
  have hfinite : (Float.Model.UnpackedFloat.unpack .binary64 x.toBits.toBitVec).isFinite = true := h
  have hexponent : @Float.Model.UnpackedFloat.unpackExponent .binary64 x.toBits.toBitVec ≠
      -1#_ := by
    intro hones
    rw [Float.Model.UnpackedFloat.unpack] at hfinite
    simp only [hones, if_true] at hfinite
    split at hfinite <;> cases hfinite
  rw [ne_eq, ← BitVec.toNat_inj, Float.Model.UnpackedFloat.unpackExponent, BitVec.toNat_cast,
    BitVec.extractLsb_toNat, Nat.shiftRight_eq_div_pow] at hexponent
  have hones : (-1#(Float.Model.Format.binary64.exponentBits)).toNat = 2047 := rfl
  rw [hones] at hexponent
  have hbits : x.toBits.toNat / 2 ^ 52 % 2 ^ 11 ≠ 2047 := hexponent
  rw [signBit]
  omega

theorem beginsNumber_float {x : Float} (h : x.isFinite = true) :
    BeginsNumber (Layout.json.text x) := by
  have hpayload := payload_lt h
  have hsigned : ∀ s, BeginsNumber s →
      BeginsNumber ((if x.toBits.toNat / signBit % 2 = 1 then "-" else "") ++ s) := by
    intro s hs
    split
    · exact beginsNumber_minus s
    · rwa [String.empty_append]
  rw [Layout.text, Layout.textOfBits]
  split
  · rw [String.append_assoc]
    exact hsigned _ ((beginsNumber_natural 0).append _)
  rw [if_neg (Nat.ne_of_lt hpayload), if_neg (Nat.not_lt.mpr (Nat.le_of_lt hpayload))]
  exact hsigned _ (beginsNumber_magnitude _ _)

end Decimal

theorem Number.beginsNumber_text {n : Number} (h : n.isFinite = true) :
    Decimal.BeginsNumber n.text := by
  cases n with
  | integer n => exact Decimal.beginsNumber_integer n
  | float x => exact Decimal.beginsNumber_float h

namespace Json

/-- The range of the characters that texts of this kind of value begin with. -/
def leading : Json → Nat × Nat
  | .string _ => (34, 34)
  | .number _ => (45, 57)
  | .array _ => (91, 91)
  | .bool _ => (102, 116)
  | .null => (110, 110)
  | .object _ => (123, 123)

/-- The value is no infinite float, and not what is no number. -/
def isFinite : Json → Bool
  | .number n => n.isFinite
  | _ => true

theorem begins_compact {x : Json} (h : x.isFinite = true) :
    Begins x.leading.1 x.leading.2 x.compact := by
  cases x with
  | null => exact ⟨'n', "ull".toList, by decide, by decide, by decide⟩
  | bool b =>
      cases b with
      | false => exact ⟨'f', "alse".toList, by decide, by decide, by decide⟩
      | true => exact ⟨'t', "rue".toList, by decide, by decide, by decide⟩
  | number n => exact Number.beginsNumber_text h
  | string s => exact ⟨'"', _, String.toList_ofList, Nat.le_refl 34, Nat.le_refl 34⟩
  | array items =>
      exact Begins.append (.append ⟨'[', [], by decide, Nat.le_refl 91, Nat.le_refl 91⟩ _) _
  | object members =>
      exact Begins.append (.append ⟨'\x7b', [], by decide, Nat.le_refl 123, Nat.le_refl 123⟩ _) _

/-- Values of different kinds are ordered by their kinds. -/
theorem compact_lt_compact {x y : Json} (hx : x.isFinite = true) (hy : y.isFinite = true)
    (hx' : x.isNull = false) (hy' : y.isNull = false) (h : x.leading.1 < y.leading.1) :
    x.compact < y.compact := by
  refine (begins_compact hx).lt (begins_compact hy) ?_
  cases x <;> cases y <;> simp [leading, isNull] at h hx' hy' ⊢

end Json

end FlowEngine
