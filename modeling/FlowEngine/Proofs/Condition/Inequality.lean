import FlowEngine.Proofs.Condition.Composition
import FlowEngine.Proofs.Condition.Numbers
import Mathlib
/-!
# `FlowEngine.Proofs.Condition.Inequality` — what is not equal is unequal, or no number

Equality and inequality of two values are decided apart from each other, but alike: with null, of
texts and by structure one is the negation of the other.  Of floats, one is a distance below the
machine epsilon and the other a distance from it on, and for a distance these are negations too.  But
a text may be read as a float that is no number (`NamesNone`), and such a float is at no distance
from any; against a number, this text is neither equal nor unequal (`compareValues_ne_iff`).

So a filter by inequality lists the records that the filter by equality leaves out, if none of them
has such a text where a number is asked for (`unequal_iff`).
-/

namespace FlowEngine

namespace Decimal

/-! ## Texts that name no number -/

/-- A text is `nan` in any case, with a sign or without. -/
inductive NamesNone : List Char → Prop where
  | bare {name : List Char} : name.map Char.toLower = "nan".toList → NamesNone name
  | plus {name : List Char} : name.map Char.toLower = "nan".toList → NamesNone ('+' :: name)
  | minus {name : List Char} : name.map Char.toLower = "nan".toList → NamesNone ('-' :: name)

theorem isNaN_of_unsigned? {negative : Bool} {cs : List Char} {x : Float}
    (h : unsigned? negative cs = some x) : x.isNaN = false := by
  simp only [unsigned?] at h
  -- With a point among the digits or without, what is read is rounded from its digits.
  split at h
  all_goals
    split at h
    · cases h
    split at h
    · cases h
      exact isNaN_nearest ..
    split at h
    · obtain ⟨e, -, rfl⟩ := Option.map_eq_some_iff.mp h
      exact isNaN_nearest ..
    · cases h

theorem magnitude?_isNaN_iff {negative : Bool} {cs : List Char} :
    (∃ x, magnitude? negative cs = some x ∧ x.isNaN = true) ↔
      cs.map Char.toLower = "nan".toList := by
  have hinfinite : (1.0 / 0.0 : Float).isNaN = false := by decide +kernel
  have hnone : (0.0 / 0.0 : Float).isNaN = true := by decide +kernel
  simp only [magnitude?]
  split
  · next hname =>
      have hne : cs.map Char.toLower ≠ "nan".toList := by
        intro hnan
        rw [hnan] at hname
        revert hname
        decide
      refine iff_of_false ?_ hne
      rintro ⟨x, hx, hnan⟩
      have hnumber : x.isNaN = false := by
        cases hx
        split
        · exact isNaN_neg hinfinite
        · exact hinfinite
      rw [hnumber] at hnan
      cases hnan
  split
  · next hname => exact iff_of_true ⟨_, rfl, hnone⟩ hname
  · next hname =>
      refine iff_of_false ?_ hname
      rintro ⟨x, hx, hnan⟩
      rw [isNaN_of_unsigned? hx] at hnan
      cases hnan

theorem lower_sign_ne {c : Char} (hc : c = '+' ∨ c = '-') (cs : List Char) :
    (c :: cs).map Char.toLower ≠ "nan".toList := by
  intro hname
  have hlower : c.toLower = 'n' := (List.cons.inj hname).1
  rcases hc with rfl | rfl
  · exact absurd hlower (by decide)
  · exact absurd hlower (by decide)

theorem float?_isNaN_iff {s : String} :
    (∃ x, float? s = some x ∧ x.isNaN = true) ↔ NamesNone s.toList := by
  unfold float?
  split
  · next cs hs =>
      rw [magnitude?_isNaN_iff, hs]
      refine ⟨.plus, fun h => ?_⟩
      cases h with
      | bare hname => exact absurd hname (lower_sign_ne (.inl rfl) cs)
      | plus hname => exact hname
  · next cs hs =>
      rw [magnitude?_isNaN_iff, hs]
      refine ⟨.minus, fun h => ?_⟩
      cases h with
      | bare hname => exact absurd hname (lower_sign_ne (.inr rfl) cs)
      | minus hname => exact hname
  · next hplus hminus =>
      rw [magnitude?_isNaN_iff]
      refine ⟨.bare, fun h => ?_⟩
      generalize s.toList = cs at hplus hminus h
      cases h with
      | bare hname => exact hname
      | plus => exact absurd rfl (hplus _)
      | minus => exact absurd rfl (hminus _)

end Decimal

namespace Condition

/-- A number against a text that names none. -/
inductive Incomparable : Json → Json → Prop where
  | left (n : Number) {s : String} : Decimal.NamesNone (Text.trim s).toList →
      Incomparable (.number n) (.string s)
  | right (n : Number) {s : String} : Decimal.NamesNone (Text.trim s).toList →
      Incomparable (.string s) (.number n)

end Condition

/-- A number that a value is stands in data. -/
def Json.InRange (value : Json) : Prop := ∀ n, value = .number n → n.InRange

namespace Condition

variable {left right : Json}

theorem floats?_eq_some_iff {x y : Float} :
    floats? left right = some (x, y) ↔
      (isNumber left = true ∨ isNumber right = true) ∧
        asFloat? left = some x ∧ asFloat? right = some y := by
  rw [floats?, ← Bool.or_eq_true]
  split
  · cases asFloat? left <;> cases asFloat? right <;> simp_all
  · simp_all

theorem isNaN_iff_namesNone {s : String} {x : Float} (h : asFloat? (.string s) = some x) :
    x.isNaN = true ↔ Decimal.NamesNone (Text.trim s).toList := by
  have hread : Decimal.float? (Text.trim s) = some x := h
  rw [← Decimal.float?_isNaN_iff, hread]
  simp

theorem isFinite_of_inRange {n : Number} {x : Float} (h : (Json.number n).InRange)
    (hx : asFloat? (.number n) = some x) : x.isFinite = true := by
  cases hx
  exact Number.isFinite_toFloat (h n rfl)

/-- Of two sides that are read as floats one is finite, and the other is no number just when it is a
text that names none. -/
theorem floats?_cases {x y : Float} (hleft : left.InRange) (hright : right.InRange)
    (h : floats? left right = some (x, y)) :
    (x.isFinite = true ∨ y.isFinite = true) ∧
      (x.isNaN = true ∨ y.isNaN = true ↔ Incomparable left right) := by
  obtain ⟨hnumber, hx, hy⟩ := floats?_eq_some_iff.mp h
  cases left with
  | number m =>
      have hfinite := isFinite_of_inRange hleft hx
      have hm : ¬ x.isNaN = true := Bool.eq_false_iff.mp (Decimal.isNaN_of_isFinite hfinite)
      refine ⟨.inl hfinite, ?_⟩
      cases right with
      | number n =>
          have hn : ¬ y.isNaN = true :=
            Bool.eq_false_iff.mp (Decimal.isNaN_of_isFinite (isFinite_of_inRange hright hy))
          refine iff_of_false (not_or.mpr ⟨hm, hn⟩) ?_
          rintro ⟨⟩
      | string s =>
          rw [or_iff_right hm, isNaN_iff_namesNone hy]
          refine ⟨.left m, fun h => ?_⟩
          cases h with
          | left _ hs => exact hs
      | _ => cases hy
  | string s =>
      cases right with
      | number n =>
          have hfinite := isFinite_of_inRange hright hy
          have hn : ¬ y.isNaN = true := Bool.eq_false_iff.mp (Decimal.isNaN_of_isFinite hfinite)
          refine ⟨.inr hfinite, ?_⟩
          rw [or_iff_left hn, isNaN_iff_namesNone hx]
          refine ⟨.right n, fun h => ?_⟩
          cases h with
          | right _ hs => exact hs
      | _ => simp [isNumber] at hnumber
  | _ => cases hx

/-- Values that cannot be compared are read as floats, of which one is no number. -/
theorem Incomparable.floats (h : Incomparable left right) :
    ∃ x y, floats? left right = some (x, y) ∧ (x.isNaN = true ∨ y.isNaN = true) := by
  have hread : ∀ {s : String}, Decimal.NamesNone (Text.trim s).toList →
      ∃ x, asFloat? (.string s) = some x ∧ x.isNaN = true :=
    fun hs => Decimal.float?_isNaN_iff.mpr hs
  cases h with
  | left n hs =>
      obtain ⟨y, hy, hnan⟩ := hread hs
      exact ⟨_, y, floats?_eq_some_iff.mpr ⟨.inl rfl, rfl, hy⟩, .inr hnan⟩
  | right n hs =>
      obtain ⟨x, hx, hnan⟩ := hread hs
      exact ⟨x, _, floats?_eq_some_iff.mpr ⟨.inr rfl, hx, rfl⟩, .inl hnan⟩

/-! ## Equality and inequality -/

variable {x y : Float}

theorem compareFloats_of_isNaN (h : x.isNaN = true ∨ y.isNaN = true) :
    compareFloats x y .eq = false ∧ compareFloats x y .ne = false := by
  have hdistance := Decimal.isNaN_abs_sub h
  exact ⟨decide_eq_false (Decimal.not_lt_of_isNaN hdistance epsilon),
    decide_eq_false (Decimal.not_le_of_isNaN hdistance epsilon)⟩

theorem compareFloats_ne (hx : x.isNaN = false) (hy : y.isNaN = false)
    (hfinite : x.isFinite = true ∨ y.isFinite = true) :
    compareFloats x y .ne = !compareFloats x y .eq := by
  have hdistance := Decimal.isNaN_abs (Decimal.isNaN_sub hx hy hfinite)
  show decide _ = !decide _
  rw [← decide_not, decide_eq_decide]
  exact epsilon_le_iff hdistance

theorem compareValues_of_floats (h : floats? left right = some (x, y)) (op : Comparison) :
    compareValues left right op = compareFloats x y op := by
  obtain ⟨-, hx, hy⟩ := floats?_eq_some_iff.mp h
  have hleft : left.isNull = false := by
    cases left with
    | null => cases hx
    | _ => rfl
  have hright : right.isNull = false := by
    cases right with
    | null => cases hy
    | _ => rfl
  unfold compareValues
  rw [hleft, hright, h]
  rfl

/-- Sides that are not read as floats are unequal just when they are not equal. -/
theorem compareValues_of_none (h : floats? left right = none) :
    compareValues left right .ne = !compareValues left right .eq := by
  unfold compareValues
  split
  · rfl
  · rw [h]
    cases left with
    | string s =>
        cases right with
        | string t => rfl
        | _ => rfl
    | _ => rfl

theorem Incomparable.compareValues_eq (h : Incomparable left right) :
    compareValues left right .eq = false ∧ compareValues left right .ne = false := by
  obtain ⟨x, y, hfloats, hnan⟩ := h.floats
  rw [compareValues_of_floats hfloats, compareValues_of_floats hfloats]
  exact compareFloats_of_isNaN hnan

theorem compareValues_ne_iff (hleft : left.InRange) (hright : right.InRange) :
    compareValues left right .ne = (!compareValues left right .eq) ↔ ¬ Incomparable left right := by
  constructor
  · intro hne h
    obtain ⟨heq, hne'⟩ := h.compareValues_eq
    rw [heq, hne'] at hne
    cases hne
  · intro hcomparable
    cases hfloats : floats? left right with
    | none => exact compareValues_of_none hfloats
    | some sides =>
        obtain ⟨x, y⟩ := sides
        obtain ⟨hfinite, hnan⟩ := floats?_cases hleft hright hfloats
        rw [← hnan, not_or, Bool.not_eq_true, Bool.not_eq_true] at hcomparable
        rw [compareValues_of_floats hfloats, compareValues_of_floats hfloats]
        exact compareFloats_ne hcomparable.1 hcomparable.2 hfinite

/-- Whatever two operands are evaluated to, `!=` is the negation of `==` unless one is evaluated to
a number and the other to a text that names none; then neither holds.

So a filter by `!=` lists the records that the filter by `==` leaves out, in the order of their
creation, if in none of them a number stands against such a text. -/
theorem unequal_iff (left right : Expr) :
    (∀ root, (left.eval root).InRange → (right.eval root).InRange →
      ((Expr.compare .ne left right).eval root =
          .bool (!(Expr.compare .eq left right).holds root) ↔
        ¬ Incomparable (left.eval root) (right.eval root))) ∧
    (∀ root, Incomparable (left.eval root) (right.eval root) →
      (Expr.compare .eq left right).holds root = false ∧
      (Expr.compare .ne left right).holds root = false) ∧
    ∀ F G, parse F = .ok (.compare .eq left right) → parse G = .ok (.compare .ne left right) →
      ∀ (store : MemoryStore) (collection : String),
      (∀ record ∈ store.records collection, (left.eval record).InRange ∧
        (right.eval record).InRange ∧ ¬ Incomparable (left.eval record) (right.eval record)) →
      store.Matches collection F
        ((store.records collection).filter (Expr.compare .eq left right).holds) ∧
      store.Matches collection G ((store.records collection).filter fun record =>
        !(Expr.compare .eq left right).holds record) := by
  have hvalues : ∀ root, (left.eval root).InRange → (right.eval root).InRange →
      ((Expr.compare .ne left right).holds root = (!(Expr.compare .eq left right).holds root) ↔
        ¬ Incomparable (left.eval root) (right.eval root)) :=
    fun root hleft hright => compareValues_ne_iff hleft hright
  refine ⟨?_, ?_, ?_⟩
  · intro root hleft hright
    rw [← hvalues root hleft hright]
    exact ⟨Json.bool.inj, congrArg Json.bool⟩
  · intro root h
    exact h.compareValues_eq
  · intro F G hF hG store collection hrecords
    refine ⟨MemoryStore.matches_of_parse hF store collection, ?_⟩
    have hsame : (store.records collection).filter (Expr.compare .ne left right).holds =
        (store.records collection).filter fun record =>
          !(Expr.compare .eq left right).holds record := by
      apply List.filter_congr
      intro record hrecord
      obtain ⟨hleft, hright, hcomparable⟩ := hrecords record hrecord
      exact (hvalues record hleft hright).mpr hcomparable
    rw [← hsame]
    exact MemoryStore.matches_of_parse hG store collection

def shelf (counted : Json) : Json :=
  .record [("counted", counted), ("booked", .number (.integer 3))]

/-- Two shelves on which three were counted, a number and a text, and two with something else. -/
def shelves : List Json :=
  [shelf (.number (.integer 3)), shelf (.string "few"), shelf (.string " 3.0 "), shelf .null]

theorem unequal_shelves :
    parse "counted == booked" = .ok (.compare .eq (.path ["counted"]) (.path ["booked"])) ∧
    parse "counted != booked" = .ok (.compare .ne (.path ["counted"]) (.path ["booked"])) ∧
    ∃ store : MemoryStore, store.records "shelves" = shelves ∧
      store.Matches "shelves" "counted == booked"
        [shelf (.number (.integer 3)), shelf (.string " 3.0 ")] ∧
      store.Matches "shelves" "counted != booked" [shelf (.string "few"), shelf .null] := by
  have hF : parse "counted == booked" =
      .ok (.compare .eq (.path ["counted"]) (.path ["booked"])) := by
    cbv
  have hG : parse "counted != booked" =
      .ok (.compare .ne (.path ["counted"]) (.path ["booked"])) := by
    cbv
  have hthree : (Json.number (.integer 3)).InRange := by
    rintro n ⟨⟩
    simp [Number.InRange]
  have hcomparable : ∀ counted : Json, counted.InRange →
      compareValues counted (.number (.integer 3)) .ne =
        (!compareValues counted (.number (.integer 3)) .eq) →
      ((Expr.path ["counted"]).eval (shelf counted)).InRange ∧
        ((Expr.path ["booked"]).eval (shelf counted)).InRange ∧
        ¬ Incomparable ((Expr.path ["counted"]).eval (shelf counted))
          ((Expr.path ["booked"]).eval (shelf counted)) :=
    fun counted hcounted hne =>
      ⟨hcounted, hthree, (compareValues_ne_iff hcounted hthree).mp hne⟩
  have hapart : ∀ record ∈ shelves, ((Expr.path ["counted"]).eval record).InRange ∧
      ((Expr.path ["booked"]).eval record).InRange ∧
      ¬ Incomparable ((Expr.path ["counted"]).eval record)
        ((Expr.path ["booked"]).eval record) := by
    intro record hrecord
    simp only [shelves, List.mem_cons, List.not_mem_nil, or_false] at hrecord
    rcases hrecord with rfl | rfl | rfl | rfl
    · exact hcomparable _ hthree (by decide +kernel)
    · exact hcomparable _ (by rintro n ⟨⟩) (by decide +kernel)
    · exact hcomparable _ (by rintro n ⟨⟩) (by decide +kernel)
    · exact hcomparable _ (by rintro n ⟨⟩) (by decide +kernel)
  have h₁ : (Expr.compare .eq (.path ["counted"]) (.path ["booked"])).holds
      (shelf (.number (.integer 3))) = true := by decide +kernel
  have h₂ : (Expr.compare .eq (.path ["counted"]) (.path ["booked"])).holds
      (shelf (.string "few")) = false := by decide +kernel
  have h₃ : (Expr.compare .eq (.path ["counted"]) (.path ["booked"])).holds
      (shelf (.string " 3.0 ")) = true := by decide +kernel
  have h₄ : (Expr.compare .eq (.path ["counted"]) (.path ["booked"])).holds
      (shelf .null) = false := by decide +kernel
  have hrecords : MemoryStore.records { collections := [("shelves", shelves)] } "shelves" =
      shelves := rfl
  have hequal : shelves.filter
      (Expr.compare .eq (.path ["counted"]) (.path ["booked"])).holds =
        [shelf (.number (.integer 3)), shelf (.string " 3.0 ")] := by
    simp [shelves, h₁, h₂, h₃, h₄]
  have hunequal : (shelves.filter fun record =>
      !(Expr.compare .eq (.path ["counted"]) (.path ["booked"])).holds record) =
        [shelf (.string "few"), shelf .null] := by
    simp [shelves, h₁, h₂, h₃, h₄]
  obtain ⟨-, -, hfilters⟩ := unequal_iff (.path ["counted"]) (.path ["booked"])
  have hmatches := hfilters _ _ hF hG { collections := [("shelves", shelves)] } "shelves" hapart
  rw [hrecords, hequal, hunequal] at hmatches
  exact ⟨hF, hG, _, hrecords, hmatches⟩

def blurred : Json := .record [("input", .record [("n", .string "nan")])]

/-- The text is neither equal to one nor unequal to it. -/
theorem not_unequal_blurred :
    (Expr.compare .eq (.path ["input", "n"]) (.number 1)).holds blurred = false ∧
    ¬ (Expr.compare .ne (.path ["input", "n"]) (.number 1)).eval blurred =
      .bool (!(Expr.compare .eq (.path ["input", "n"]) (.number 1)).holds blurred) := by
  have hequal : (Expr.compare .eq (.path ["input", "n"]) (.number 1)).holds blurred = false := by
    decide +kernel
  have hunequal : (Expr.compare .ne (.path ["input", "n"]) (.number 1)).holds blurred = false := by
    decide +kernel
  refine ⟨hequal, fun hnegation => ?_⟩
  rw [hequal] at hnegation
  have hne := Json.bool.inj hnegation
  rw [← holds_compare, hunequal] at hne
  cases hne

end Condition

end FlowEngine
