import FlowEngine.Condition.Eval
import FlowEngine.Proofs.Decimal.Rounding
/-!
# `FlowEngine.Proofs.Condition.Numbers` — numbers compared by a condition

A number in data is a whole number of 64 bits or a finite float, and a condition compares two of
them as floats.  The four comparisons by order say of the floats what is so of the numbers they stand
for.  Equality does not: it is said of any two that are less than `tolerance` apart, which is just
short of the machine epsilon (`compared_numbers`).  So two comparisons that exclude each other may
both hold, and the six agree with each other and with the numbers just when the two are equal or so
far apart.
-/

namespace FlowEngine

/-! ## Numbers in data -/

namespace Number

/-- A number as it stands in data: whole and of 64 bits, signed or not, or a finite float. -/
def InRange : Number → Prop
  | integer n => -2 ^ 63 ≤ n ∧ n < 2 ^ 64
  | float x => x.isFinite = true

theorem isFinite_toFloat {n : Number} (h : n.InRange) : n.toFloat.isFinite = true := by
  cases n with
  | integer n =>
      obtain ⟨hlow, hhigh⟩ := h
      exact Decimal.isFinite_nearest _ (by omega)
  | float x => exact h

/-- The number that a number stands for as a float. -/
def value (n : Number) : ℚ := Decimal.value n.toFloat

end Number

namespace Condition

/-! ## Comparisons -/

/-- The distance from which on numbers are unequal. -/
def tolerance : ℚ := 2 ^ (-52 : ℤ) - 2 ^ (-106 : ℤ)

/-- What a comparison says of two numbers. -/
def Comparison.Says : Comparison → ℚ → ℚ → Prop
  | .eq, x, y => |x - y| < tolerance
  | .ne, x, y => tolerance ≤ |x - y|
  | .gt, x, y => y < x
  | .lt, x, y => x < y
  | .ge, x, y => y ≤ x
  | .le, x, y => x ≤ y

theorem epsilon_eq : epsilon.isFinite = true ∧ Decimal.value epsilon = 2 ^ (-52 : ℤ) := by
  have hpacked : epsilon.toModel =
      Float.Model.pack (.finite .positive (2 ^ 52) (-104) (by decide)) := by decide +kernel
  have hfits : Decimal.Fits (2 ^ 52) (-104) := ⟨by decide, by decide, .inr le_rfl⟩
  obtain ⟨hfinite, hvalue⟩ := Decimal.value_of_packed hpacked hfits (by decide)
  refine ⟨hfinite, hvalue.trans ?_⟩
  norm_num [Float.Model.UnpackedFloat.Sign.apply]

theorem abs_sub_lt_epsilon_iff {x y : Float} (hx : x.isFinite = true) (hy : y.isFinite = true) :
    (x - y).abs < epsilon ↔ |Decimal.value x - Decimal.value y| < tolerance := by
  obtain ⟨hfinite, hvalue⟩ := epsilon_eq
  exact Decimal.abs_sub_lt_iff hx hy hfinite (by decide) (by decide) hvalue

/-- A distance that is a number is below the machine epsilon or it is not. -/
theorem epsilon_le_iff {d : Float} (hd : d.isNaN = false) : epsilon ≤ d ↔ ¬ d < epsilon :=
  (Decimal.not_lt_iff hd (Decimal.isNaN_of_isFinite epsilon_eq.1)).symm

/-- Finite floats are compared as the numbers they stand for, but for equality. -/
theorem compareFloats_iff {x y : Float} (hx : x.isFinite = true) (hy : y.isFinite = true)
    (op : Comparison) :
    compareFloats x y op = true ↔ op.Says (Decimal.value x) (Decimal.value y) := by
  cases op with
  | eq => exact decide_eq_true_iff.trans (abs_sub_lt_epsilon_iff hx hy)
  | ne =>
      have hnumber : (x - y).abs.isNaN = false := Decimal.isNaN_abs
        (Decimal.isNaN_sub (Decimal.isNaN_of_isFinite hx) (Decimal.isNaN_of_isFinite hy) (.inl hx))
      refine decide_eq_true_iff.trans ?_
      rw [epsilon_le_iff hnumber, abs_sub_lt_epsilon_iff hx hy, not_lt]
      rfl
  | gt => exact decide_eq_true_iff.trans (Decimal.lt_iff_value hy hx)
  | lt => exact decide_eq_true_iff.trans (Decimal.lt_iff_value hx hy)
  | ge => exact decide_eq_true_iff.trans (Decimal.le_iff_value hy hx)
  | le => exact decide_eq_true_iff.trans (Decimal.le_iff_value hx hy)

variable {left right : Expr} {root : Json} {m n : Number}

theorem holds_compare (op : Comparison) (left right : Expr) (root : Json) :
    (Expr.compare op left right).holds root =
      compareValues (left.eval root) (right.eval root) op := rfl

theorem holds_compare_iff (hleft : left.eval root = .number m)
    (hright : right.eval root = .number n) (hm : m.InRange) (hn : n.InRange) (op : Comparison) :
    (Expr.compare op left right).holds root = true ↔ op.Says m.value n.value := by
  rw [holds_compare, hleft, hright]
  exact compareFloats_iff (Number.isFinite_toFloat hm) (Number.isFinite_toFloat hn) op

/-! ## Agreement -/

/-- Comparisons that agree with two numbers and with each other: equality holds just of equals, one
of `<`, `==` and `>` holds and not two of them, and `>=` and `<=` hold where equality does or the
strict comparison. -/
structure Agree (holds : Comparison → Bool) (x y : ℚ) : Prop where
  eq : holds .eq = true ↔ x = y
  one : [Comparison.lt, .eq, .gt].countP holds = 1
  ge : holds .ge = (holds .gt || holds .eq)
  le : holds .le = (holds .lt || holds .eq)

theorem tolerance_pos : 0 < tolerance := by
  norm_num [tolerance]

theorem agree_iff {holds : Comparison → Bool} {x y : ℚ}
    (h : ∀ op, holds op = true ↔ op.Says x y) : Agree holds x y ↔ x = y ∨ tolerance ≤ |x - y| := by
  constructor
  · intro hagree
    by_cases hnear : |x - y| < tolerance
    · exact .inl (hagree.eq.mp ((h .eq).mpr hnear))
    · exact .inr (not_lt.mp hnear)
  · intro hapart
    have heq : holds .eq = true ↔ x = y := by
      refine (h .eq).trans ⟨fun hnear => hapart.resolve_right (not_le.mpr hnear), ?_⟩
      rintro rfl
      simpa [Comparison.Says] using tolerance_pos
    have hgt : holds .gt = true ↔ y < x := h .gt
    have hlt : holds .lt = true ↔ x < y := h .lt
    have hge : holds .ge = true ↔ y ≤ x := h .ge
    have hle : holds .le = true ↔ x ≤ y := h .le
    refine ⟨heq, ?_, ?_, ?_⟩
    · have hfalse : ∀ op, ¬ holds op = true → holds op = false := fun op => Bool.eq_false_iff.mpr
      rcases lt_trichotomy x y with hxy | rfl | hxy
      · have h₁ := hlt.mpr hxy
        have h₂ := hfalse .eq (mt heq.mp hxy.ne)
        have h₃ := hfalse .gt (mt hgt.mp hxy.not_gt)
        simp [h₁, h₂, h₃]
      · have h₁ := hfalse .lt (mt hlt.mp (lt_irrefl x))
        have h₂ := heq.mpr rfl
        have h₃ := hfalse .gt (mt hgt.mp (lt_irrefl x))
        simp [h₁, h₂, h₃]
      · have h₁ := hfalse .lt (mt hlt.mp hxy.not_gt)
        have h₂ := hfalse .eq (mt heq.mp hxy.ne')
        have h₃ := hgt.mpr hxy
        simp [h₁, h₂, h₃]
    · rw [Bool.eq_iff_iff, Bool.or_eq_true, hge, hgt, heq, le_iff_lt_or_eq, eq_comm (a := y)]
    · rw [Bool.eq_iff_iff, Bool.or_eq_true, hle, hlt, heq, le_iff_lt_or_eq]

/-- Two numbers, whatever they are, are compared by order as the numbers that their floats stand
for; equality holds of those that are less than the tolerance apart, and only of those.  The
comparisons agree with the numbers, and with each other, just when the two are equal or at least that
far apart. -/
theorem compared_numbers (hleft : left.eval root = .number m)
    (hright : right.eval root = .number n) (hm : m.InRange) (hn : n.InRange) :
    (∀ op, (Expr.compare op left right).holds root = true ↔ op.Says m.value n.value) ∧
    (Agree (fun op => (Expr.compare op left right).holds root) m.value n.value ↔
      m.value = n.value ∨ tolerance ≤ |m.value - n.value|) := by
  have hcompared := holds_compare_iff hleft hright hm hn
  exact ⟨hcompared, agree_iff hcompared⟩

def weighed : Json := .record [("ordered", .number (.integer 3)), ("packed", .number (.float 2.5))]

theorem compared_numbers_weighed :
    (Expr.path ["ordered"]).eval weighed = .number (.integer 3) ∧
    (Expr.path ["packed"]).eval weighed = .number (.float 2.5) ∧
    (Number.integer 3).InRange ∧ (Number.float 2.5).InRange ∧
    Agree (fun op => (Expr.compare op (.path ["ordered"]) (.path ["packed"])).holds weighed)
      3 (5 / 2) := by
  have hthree : (Number.integer 3).toFloat.toModel =
      Float.Model.pack (.finite .positive (3 * 2 ^ 51) (-51) (by decide)) := by decide +kernel
  have hhalf : (2.5 : Float).toModel =
      Float.Model.pack (.finite .positive (5 * 2 ^ 50) (-51) (by decide)) := by decide +kernel
  obtain ⟨-, hordered⟩ := Decimal.value_of_packed hthree
    ⟨by decide, by decide, .inr (by decide)⟩ (by decide)
  obtain ⟨hfinite, hpacked⟩ := Decimal.value_of_packed hhalf
    ⟨by decide, by decide, .inr (by decide)⟩ (by decide)
  have hx : (Number.integer 3).value = 3 := by
    refine hordered.trans ?_
    norm_num [Float.Model.UnpackedFloat.Sign.apply]
  have hy : (Number.float 2.5).value = 5 / 2 := by
    refine hpacked.trans ?_
    norm_num [Float.Model.UnpackedFloat.Sign.apply]
  have hwhole : (Number.integer 3).InRange := by simp [Number.InRange]
  have hleft : (Expr.path ["ordered"]).eval weighed = .number (.integer 3) := rfl
  have hright : (Expr.path ["packed"]).eval weighed = .number (.float 2.5) := rfl
  obtain ⟨-, hagree⟩ := compared_numbers hleft hright hwhole hfinite
  rw [hx, hy] at hagree
  refine ⟨hleft, hright, hwhole, hfinite, hagree.mpr (.inr ?_)⟩
  norm_num [tolerance, abs_of_pos]

def traces : Json := .record [("a", .number (.float 1e-17)), ("b", .number (.integer 0))]

/-- The first is above the second, and equal to it; the second is equal to the first, and not at
least as large. -/
theorem not_agree_traces :
    (Expr.path ["a"]).eval traces = .number (.float 1e-17) ∧
    (Expr.path ["b"]).eval traces = .number (.integer 0) ∧
    (Number.float 1e-17).InRange ∧ (Number.integer 0).InRange ∧
    (Expr.compare .gt (.path ["a"]) (.path ["b"])).holds traces = true ∧
    (Expr.compare .eq (.path ["a"]) (.path ["b"])).holds traces = true ∧
    (Expr.compare .eq (.path ["b"]) (.path ["a"])).holds traces = true ∧
    (Expr.compare .ge (.path ["b"]) (.path ["a"])).holds traces = false ∧
    ¬ Agree (fun op => (Expr.compare op (.path ["a"]) (.path ["b"])).holds traces)
      (Number.float 1e-17).value (Number.integer 0).value := by
  have habove : (Expr.compare .gt (.path ["a"]) (.path ["b"])).holds traces = true := by
    decide +kernel
  have hequal : (Expr.compare .eq (.path ["a"]) (.path ["b"])).holds traces = true := by
    decide +kernel
  refine ⟨rfl, rfl, ?_, ?_, habove, hequal, ?_, ?_, ?_⟩
  · show (1e-17 : Float).isFinite = true
    decide +kernel
  · simp [Number.InRange]
  · decide +kernel
  · decide +kernel
  · intro hagree
    have hbelow : (Expr.compare .lt (.path ["a"]) (.path ["b"])).holds traces = false := by
      decide +kernel
    have hone := hagree.one
    simp [habove, hequal, hbelow] at hone

end Condition

end FlowEngine
