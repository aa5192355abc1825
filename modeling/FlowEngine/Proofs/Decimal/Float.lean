import FlowEngine.Comparison
import FlowEngine.Store.Order
import Mathlib
/-!
# `FlowEngine.Proofs.Decimal.Float` — the order of floats

A float is ordered by its class and sign, then by exponent and mantissa; `rank` puts these into
three whole numbers.  What is no number has no place in this order, so the floats that stand for
numbers must not be that: a whole number is rounded to some float (`isNaN_nearest`), infinity
included, and never to none.
-/

namespace FlowEngine.Decimal

open Float.Model (UnpackedFloat)

/-! ## Ranks -/

/-- The place of a float: its class and sign, its exponent and its mantissa. -/
def rank : UnpackedFloat → Int × Int × Int
  | .infinity .negative => (-2, 0, 0)
  | .finite .negative m e _ => (-1, -e, -m)
  | .zero _ => (0, 0, 0)
  | .finite .positive m e _ => (1, e, m)
  | .infinity .positive => (2, 0, 0)
  | .notANumber => (0, 0, 0)

/-- One place before another. -/
def orderRanks (a b : Int × Int × Int) : Ordering :=
  (compare a.1 b.1).then ((compare a.2.1 b.2.1).then (compare a.2.2 b.2.2))

instance : Std.TransCmp orderRanks :=
  inferInstanceAs (Std.TransCmp (compareLex (compareOn Prod.fst)
    (compareLex (compareOn fun a : Int × Int × Int => a.2.1) (compareOn fun a => a.2.2))))

theorem compare_neg (a b : Int) : compare (-a) (-b) = (compare a b).swap := by
  simp only [compare, compareOfLessAndEq]
  grind [Ordering.swap]

theorem compare_natCast (m n : Nat) : compare (m : Int) n = compare m n := by
  simp only [compare, compareOfLessAndEq]
  grind

theorem compare_eq_orderRanks {x y : UnpackedFloat} (hx : x.isNaN = false) (hy : y.isNaN = false) :
    x.compare y = some (orderRanks (rank x) (rank y)) := by
  cases x with
  | notANumber => cases hx
  | infinity s =>
      cases y with
      | notANumber => cases hy
      | infinity t => cases s <;> cases t <;> rfl
      | zero t => cases s <;> rfl
      | finite t m e h => cases s <;> cases t <;> rfl
  | zero s =>
      cases y with
      | notANumber => cases hy
      | infinity t => cases t <;> rfl
      | zero t => rfl
      | finite t m e h => cases t <;> rfl
  | finite s m e h =>
      cases y with
      | notANumber => cases hy
      | infinity t => cases s <;> cases t <;> rfl
      | zero t => cases s <;> rfl
      | finite t m' e' h' =>
          cases s with
          | negative =>
              cases t with
              | negative =>
                  show some ((compare e e').then (compare m m')).swap =
                    some ((compare (-e) (-e')).then (compare (-(m : Int)) (-(m' : Int))))
                  rw [compare_neg, compare_neg, compare_natCast, Ordering.swap_then]
              | positive => rfl
          | positive =>
              cases t with
              | negative => rfl
              | positive =>
                  show some ((compare e e').then (compare m m')) =
                    some ((compare e e').then (compare (m : Int) (m' : Int)))
                  rw [compare_natCast]

theorem lt_iff_compare {x y : Float} :
    x < y ↔ x.toModel.unpack.compare y.toModel.unpack = some .lt := by
  show (decide (_ = true)) = true ↔ _
  rw [decide_eq_true_iff]
  exact beq_iff_eq

theorem le_iff_compare {x y : Float} :
    x ≤ y ↔ (x.toModel.unpack.compare y.toModel.unpack).any (·.isLE) = true := by
  show (decide (_ = true)) = true ↔ _
  rw [decide_eq_true_iff]
  rfl

theorem lt_iff_rank {x y : Float} (hx : x.isNaN = false) (hy : y.isNaN = false) :
    x < y ↔ orderRanks (rank x.toModel.unpack) (rank y.toModel.unpack) = .lt := by
  rw [lt_iff_compare, compare_eq_orderRanks hx hy, Option.some_inj]

theorem le_iff_rank {x y : Float} (hx : x.isNaN = false) (hy : y.isNaN = false) :
    x ≤ y ↔ (orderRanks (rank x.toModel.unpack) (rank y.toModel.unpack)).isLE = true := by
  rw [le_iff_compare, compare_eq_orderRanks hx hy, Option.any_some]

theorem orderRanks_swap (a b : Int × Int × Int) : orderRanks a b = (orderRanks b a).swap :=
  Std.OrientedCmp.eq_swap

/-- Of two floats that are numbers, the one is below the other or not below it. -/
theorem not_lt_iff {x y : Float} (hx : x.isNaN = false) (hy : y.isNaN = false) :
    ¬ x < y ↔ y ≤ x := by
  rw [lt_iff_rank hx hy, le_iff_rank hy hx, orderRanks_swap]
  cases orderRanks (rank y.toModel.unpack) (rank x.toModel.unpack) <;> simp

theorem orderFloats_eq {x y : Float} (hx : x.isNaN = false) (hy : y.isNaN = false) :
    Store.orderFloats x y = orderRanks (rank x.toModel.unpack) (rank y.toModel.unpack) := by
  have hswap := orderRanks_swap (rank x.toModel.unpack) (rank y.toModel.unpack)
  rw [Store.orderFloats]
  simp only [lt_iff_rank hx hy, lt_iff_rank hy hx]
  revert hswap
  cases orderRanks (rank x.toModel.unpack) (rank y.toModel.unpack) <;>
    cases orderRanks (rank y.toModel.unpack) (rank x.toModel.unpack) <;> simp

theorem ordersOn_floats : OrdersOn (fun x : Float => x.isNaN = false) Store.orderFloats :=
  (OrdersOn.of_transCmp (fun _ => True) orderRanks).comap
    (f := fun x : Float => rank x.toModel.unpack) (fun _ _ => trivial)
    |>.congr fun _ _ hx hy => orderFloats_eq hx hy

/-! ## What is a number -/

theorem isNaN_of_isFinite {x : Float} (h : x.isFinite = true) : x.isNaN = false := by
  have hx : x.toModel.unpack.isFinite = true := h
  show x.toModel.unpack.isNaN = false
  revert hx
  cases x.toModel.unpack <;> simp [UnpackedFloat.isFinite, UnpackedFloat.isNaN]

theorem isNaN_pack {u : UnpackedFloat} (h : u.isNaN = false) :
    (Float.Model.pack u).unpack.isNaN = false := by
  -- A float is no number when all bits of the exponent are set and the mantissa is not zero.
  have hnumber : ∀ (spec : Float.Model.Format) (sign : UnpackedFloat.Sign) (e) (m),
      e ≠ -1#_ ∨ m = 0#_ →
      (UnpackedFloat.unpack spec (UnpackedFloat.packComponents spec sign e m)).isNaN = false := by
    intro spec sign e m hem
    rw [UnpackedFloat.unpack]
    simp only [UnpackedFloat.unpackMantissa_packComponents,
      UnpackedFloat.unpackExponent_packComponents]
    split
    · next he =>
        rw [if_pos (hem.resolve_left (not_not_intro he))]
        rfl
    · split
      · split <;> rfl
      · rfl
  show (UnpackedFloat.unpack _ (UnpackedFloat.pack _ u)).isNaN = false
  cases u with
  | notANumber => cases h
  | infinity s => exact hnumber _ s _ _ (Or.inr rfl)
  | zero s => exact hnumber _ s _ _ (Or.inr rfl)
  | finite s m e hm =>
      simp only [UnpackedFloat.pack]
      split
      · exact hnumber _ s _ _ (Or.inr rfl)
      · next hrange =>
          split
          · refine hnumber _ s _ _ (Or.inl ?_)
            rw [ne_eq, ← BitVec.toNat_inj, BitVec.toNat_ofNat]
            have hones : (-1#(Float.Model.Format.binary64.exponentBits)).toNat = 2047 := rfl
            rw [hones]
            omega
          · refine hnumber _ s _ _ (Or.inl ?_)
            decide

theorem isNaN_roundWithAccuracy (spec : Float.Model.Format) (sign : UnpackedFloat.Sign) (m : Nat)
    (e : Int) (accuracy : UnpackedFloat.Accuracy) :
    (UnpackedFloat.roundWithAccuracy spec sign m e accuracy).isNaN = false := by
  simp only [UnpackedFloat.roundWithAccuracy]
  split <;> rfl

theorem isNaN_normalize (spec : Float.Model.Format) (n e : Int) (sign : UnpackedFloat.Sign) :
    (UnpackedFloat.normalize spec n e sign).isNaN = false := by
  simp only [UnpackedFloat.normalize]
  split
  · exact isNaN_roundWithAccuracy ..
  · rfl
  · exact isNaN_roundWithAccuracy ..

theorem isNaN_mul_finite (spec : Float.Model.Format) {u : UnpackedFloat} (h : u.isNaN = false)
    {sign : UnpackedFloat.Sign} {m : Nat} {e : Int} {hm : 0 < m} :
    (u.mul spec (.finite sign m e hm)).isNaN = false := by
  cases u with
  | notANumber => cases h
  | infinity s => rfl
  | zero s => rfl
  | finite s m e hm => exact isNaN_roundWithAccuracy ..

theorem isNaN_div_finite (spec : Float.Model.Format) {u : UnpackedFloat} (h : u.isNaN = false)
    {sign : UnpackedFloat.Sign} {m : Nat} {e : Int} {hm : 0 < m} :
    (u.div spec (.finite sign m e hm)).isNaN = false := by
  cases u with
  | notANumber => cases h
  | infinity s => rfl
  | zero s => rfl
  | finite s m e hm => exact isNaN_roundWithAccuracy ..

theorem unpack_powerOfTen (e : Nat) (h : e < Float.exactlyRepresentablePowersOfTen.size) :
    ∃ sign m k hm, Float.exactlyRepresentablePowersOfTen[e].toModel.unpack =
      .finite sign m k hm := by
  have hfinite : ∀ e, (h : e < Float.exactlyRepresentablePowersOfTen.size) →
      (match Float.exactlyRepresentablePowersOfTen[e].toModel.unpack with
        | .finite .. => true
        | _ => false) = true := by decide +kernel
  have he := hfinite e h
  split at he
  · exact ⟨_, _, _, _, by assumption⟩
  · cases he

theorem isNaN_roundScientific (spec : Float.Model.Format) (m : Nat) (e : Int) :
    (UnpackedFloat.ofScientific spec m e).isNaN = false := by
  simp only [UnpackedFloat.ofScientific]
  split
  · rfl
  split
  · rfl
  split
  · rfl
  split
  · exact isNaN_roundWithAccuracy ..
  · exact isNaN_roundWithAccuracy ..

theorem isNaN_ofScientific (m : Nat) (negative : Bool) (e : Nat) :
    (Float.ofScientific m negative e).isNaN = false := by
  have hnat : m.toUInt64.toFloat.toModel.unpack.isNaN = false := isNaN_pack (isNaN_normalize ..)
  rw [Float.ofScientific]
  split
  · next hfast =>
      have hsize : e < Float.exactlyRepresentablePowersOfTen.size := by
        rw [show Float.exactlyRepresentablePowersOfTen.size = 23 from rfl]
        omega
      obtain ⟨sign, k, x, hk, hpower⟩ := unpack_powerOfTen e hsize
      split
      · refine isNaN_pack ?_
        rw [hpower]
        exact isNaN_div_finite _ hnat
      · refine isNaN_pack ?_
        rw [hpower]
        exact isNaN_mul_finite _ hnat
  · exact isNaN_pack (isNaN_roundScientific ..)

theorem isNaN_neg {x : Float} (h : x.isNaN = false) : (-x).isNaN = false := by
  refine isNaN_pack ?_
  have hx : x.toModel.unpack.isNaN = false := h
  revert hx
  cases x.toModel.unpack <;> exact id

theorem isNaN_abs {x : Float} (h : x.isNaN = false) : x.abs.isNaN = false := by
  refine isNaN_pack ?_
  have hx : x.toModel.unpack.isNaN = false := h
  revert hx
  cases x.toModel.unpack <;> exact id

/-- The difference of two numbers is a number, unless both are infinite. -/
theorem isNaN_sub {x y : Float} (hx : x.isNaN = false) (hy : y.isNaN = false)
    (h : x.isFinite = true ∨ y.isFinite = true) : (x - y).isNaN = false := by
  refine isNaN_pack ?_
  have hu : x.toModel.unpack.isNaN = false := hx
  have hv : y.toModel.unpack.isNaN = false := hy
  have hfinite : x.toModel.unpack.isFinite = true ∨ y.toModel.unpack.isFinite = true := h
  revert hu hv hfinite
  generalize x.toModel.unpack = u
  generalize y.toModel.unpack = v
  intro hu hv hfinite
  cases u with
  | notANumber => cases hu
  | infinity s =>
      cases v with
      | notANumber => cases hv
      | infinity t => simp [UnpackedFloat.isFinite] at hfinite
      | _ => rfl
  | zero s =>
      cases v with
      | notANumber => cases hv
      | zero t =>
          show (if s == -t then UnpackedFloat.zero s else .zero .positive).isNaN = false
          split <;> rfl
      | _ => rfl
  | finite s m e hm =>
      cases v with
      | notANumber => cases hv
      | finite t m' e' hm' => exact isNaN_normalize ..
      | _ => rfl

theorem eq_notANumber {u : UnpackedFloat} (h : u.isNaN = true) : u = .notANumber := by
  cases u with
  | notANumber => rfl
  | _ => cases h

theorem unpack_pack_notANumber : (Float.Model.pack .notANumber).unpack = .notANumber :=
  eq_notANumber (by decide +kernel)

theorem isNaN_abs_sub {x y : Float} (h : x.isNaN = true ∨ y.isNaN = true) :
    (x - y).abs.isNaN = true := by
  have hsub : UnpackedFloat.sub .binary64 x.toModel.unpack y.toModel.unpack = .notANumber := by
    rcases h with hx | hy
    · rw [eq_notANumber hx]
      rfl
    · rw [eq_notANumber hy]
      cases x.toModel.unpack <;> rfl
  show (Float.Model.pack (Float.Model.pack (UnpackedFloat.sub .binary64 x.toModel.unpack
    y.toModel.unpack)).unpack.abs).unpack.isNaN = true
  rw [hsub, unpack_pack_notANumber, UnpackedFloat.abs, unpack_pack_notANumber]
  rfl

theorem not_lt_of_isNaN {x : Float} (hx : x.isNaN = true) (y : Float) : ¬ x < y := by
  rw [lt_iff_compare, eq_notANumber hx]
  simp [UnpackedFloat.compare]

theorem not_le_of_isNaN {y : Float} (hy : y.isNaN = true) (x : Float) : ¬ x ≤ y := by
  rw [le_iff_compare, eq_notANumber hy]
  cases x.toModel.unpack <;> simp [UnpackedFloat.compare]

theorem isNaN_nearest (negative : Bool) (coefficient : Nat) (exponent : Int) :
    (nearest negative coefficient exponent).isNaN = false := by
  have hzero : (0.0 : Float).isNaN = false := isNaN_ofScientific ..
  have hinfinite : (1.0 / 0.0 : Float).isNaN = false := by decide +kernel
  have hsigned : ∀ magnitude : Float, magnitude.isNaN = false →
      (if negative then -magnitude else magnitude).isNaN = false := by
    intro magnitude h
    split
    · exact isNaN_neg h
    · exact h
  unfold nearest
  apply hsigned
  split
  · exact hzero
  split
  · exact hinfinite
  split
  · exact isNaN_ofScientific ..
  · exact isNaN_ofScientific ..

end FlowEngine.Decimal
