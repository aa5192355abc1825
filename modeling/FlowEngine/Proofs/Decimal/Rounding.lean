import FlowEngine.Proofs.Decimal.Value
/-!
# `FlowEngine.Proofs.Decimal.Rounding` — what a float keeps of a number

The result of an operation is a number that may have more bits than a mantissa holds.  The bits that
are too many are shifted out, and of them it is remembered only how they compare to half of the last
bit that stays (`Represents`).  That is enough to round to the nearest mantissa, and to the even one
of two that are equally near (`Rounded`).  What comes out fits, and is the nearest there is
(`Rounds`).

So a difference is below a power of two, rounded, just when it is below it by more than half a unit
of the floats before that power (`RoundsTo.lt_iff`).
-/

namespace FlowEngine.Decimal

open Float.Model (UnpackedFloat)
open Float.Model.UnpackedFloat (ExtendedMantissa)

/-! ## Whole numbers nearby -/

/-- The whole number nearest to a number, and of two that are equally near the even one. -/
structure Rounded (q : ℚ) (r : ℕ) : Prop where
  near : |q - r| ≤ 1 / 2
  even : |q - r| = 1 / 2 → Even r

namespace Rounded

variable {q : ℚ} {r n : ℕ}

theorem self (r : ℕ) : Rounded r r where
  near := by simp
  even := by simp

theorem le_iff_of_even (h : Rounded q r) (hn : Even n) : n ≤ r ↔ (n : ℚ) - 1 / 2 ≤ q := by
  obtain ⟨hlow, hhigh⟩ := abs_le.mp h.near
  constructor
  · intro hle
    have : (n : ℚ) ≤ r := by exact_mod_cast hle
    linarith
  · intro hle
    by_contra hlt
    have hsucc : (r : ℚ) + 1 ≤ n := by exact_mod_cast Nat.lt_of_not_le hlt
    have hhalf : |q - r| = 1 / 2 := by
      rw [abs_of_nonneg (by linarith)]
      linarith
    have hnext : n = r + 1 := by
      have : (n : ℚ) = r + 1 := by linarith
      exact_mod_cast this
    have hodd : ¬ Even r := by rwa [hnext, Nat.even_add_one] at hn
    exact hodd (h.even hhalf)

theorem le_of_lt (h : Rounded q r) (hlt : q < n) : r ≤ n := by
  obtain ⟨hlow, hhigh⟩ := abs_le.mp h.near
  have : (r : ℚ) < n + 1 := by linarith
  exact Nat.lt_succ_iff.mp (by exact_mod_cast this)

end Rounded

/-! ## Bits that are shifted out -/

/-- A mantissa stands for a number, with what has been shifted out of it. -/
def Represents (em : ExtendedMantissa) (q : ℚ) : Prop :=
  match em with
  | ⟨m, false, false⟩ => q = m
  | ⟨m, false, true⟩ => m < q ∧ q < m + 1 / 2
  | ⟨m, true, false⟩ => q = m + 1 / 2
  | ⟨m, true, true⟩ => m + 1 / 2 < q ∧ q < m + 1

variable {em : ExtendedMantissa} {q : ℚ}

theorem shiftRightOne_even (k : ℕ) (round sticky : Bool) :
    ExtendedMantissa.shiftRightOne ⟨2 * k, round, sticky⟩ = ⟨k, false, round || sticky⟩ := by
  simp [ExtendedMantissa.shiftRightOne]

theorem shiftRightOne_odd (k : ℕ) (round sticky : Bool) :
    ExtendedMantissa.shiftRightOne ⟨2 * k + 1, round, sticky⟩ = ⟨k, true, round || sticky⟩ := by
  have hhalf : (2 * k + 1) / 2 = k := by omega
  simp [ExtendedMantissa.shiftRightOne, hhalf]

theorem Represents.shiftRightOne (h : Represents em q) : Represents em.shiftRightOne (q / 2) := by
  obtain ⟨m, round, sticky⟩ := em
  obtain ⟨k, rfl | rfl⟩ := m.even_or_odd'
  · rw [shiftRightOne_even]
    cases round <;> cases sticky <;> simp only [Represents, Bool.or_self, Bool.or_true,
      Bool.true_or] at h ⊢ <;> push_cast at h <;> grind
  · rw [shiftRightOne_odd]
    cases round <;> cases sticky <;> simp only [Represents, Bool.or_self, Bool.or_true,
      Bool.true_or] at h ⊢ <;> push_cast at h <;> grind

theorem represents_exact (m : ℕ) :
    Represents (ExtendedMantissa.ofMantissaAndAccuracy m .exact) m := rfl

theorem Represents.shiftRight (h : Represents em q) (n : ℕ) :
    Represents (em >>> n) (q / 2 ^ n) := by
  show Represents (n.repeat ExtendedMantissa.shiftRightOne em) (q / 2 ^ n)
  induction n with
  | zero => simpa [Nat.repeat] using h
  | succ n ih =>
      rw [Nat.repeat, pow_succ, ← div_div]
      exact ih.shiftRightOne

/-- What has been shifted out tells which whole number is nearest. -/
theorem Represents.rounded (h : Represents em q) : Rounded q em.roundedMantissa := by
  obtain ⟨m, round, sticky⟩ := em
  cases round with
  | false =>
      cases sticky with
      | false =>
          obtain rfl : q = m := h
          exact Rounded.self m
      | true =>
          obtain ⟨hlow, hhigh⟩ := h
          have hnear : |q - m| < 1 / 2 := abs_lt.mpr ⟨by linarith, by linarith⟩
          exact ⟨hnear.le, fun hhalf => absurd hhalf hnear.ne⟩
  | true =>
      cases sticky with
      | false =>
          obtain rfl : q = m + 1 / 2 := h
          show Rounded _ (m + m % 2)
          obtain ⟨k, rfl | rfl⟩ := m.even_or_odd'
          · rw [Nat.mul_mod_right, Nat.add_zero]
            exact ⟨by norm_num, fun _ => even_two_mul k⟩
          · rw [Nat.mul_add_mod, Nat.mod_eq_of_lt (by decide)]
            refine ⟨?_, fun _ => ⟨k + 1, by ring⟩⟩
            push_cast
            norm_num [abs_le]
      | true =>
          obtain ⟨hlow, hhigh⟩ := h
          show Rounded _ (m + 1)
          have hnear : |q - (m + 1 : ℕ)| < 1 / 2 := by
            push_cast
            exact abs_lt.mpr ⟨by linarith, by linarith⟩
          exact ⟨hnear.le, fun hhalf => absurd hhalf hnear.ne⟩

/-! ## Rounding -/

/-- Of two magnitudes, measured in units as small as 53 bits allow for the first, the second is the
whole number of units nearest to the first. -/
def RoundsTo (v w : ℚ) : Prop :=
  ∃ (q : ℚ) (r : ℕ) (t : ℤ), v = q * 2 ^ t ∧ w = r * 2 ^ t ∧ Rounded q r ∧
    q < 2 ^ 53 ∧ -1074 ≤ t ∧ (t = -1074 ∨ 2 ^ 52 ≤ q)

/-- A float for a number: it fits, and is the one nearest to the number. -/
structure Rounds (v : ℚ) (u : UnpackedFloat) : Prop where
  finite : u.isFinite = true
  canonical : Canonical u
  near : RoundsTo |v| |exactly u|

theorem targetExponent_eq (m : ℕ) (e : ℤ) :
    Float.Model.Format.binary64.targetExponent (Float.Model.totalExponent m e) =
      max (m.log2 + 1 + e - 53) (-1074) := rfl

/-- A rounded mantissa is shifted once more if it has become too large, and not otherwise. -/
theorem shiftToTargetExponent_rounded {r : ℕ} {t : ℤ} (hr : r ≤ 2 ^ 53) (ht : -1074 ≤ t)
    (hfull : t = -1074 ∨ 2 ^ 52 ≤ r) :
    UnpackedFloat.shiftToTargetExponent .binary64 r t .exact =
      if r < 2 ^ 53 then (⟨r, false, false⟩, t) else (⟨2 ^ 52, false, false⟩, t + 1) := by
  rw [UnpackedFloat.shiftToTargetExponent, targetExponent_eq, UnpackedFloat.shiftToExponent]
  split
  · next hlt =>
      have hlog : r.log2 < 53 := by
        by_cases hzero : r = 0
        · simp [hzero]
        · exact (Nat.log2_lt hzero).mpr hlt
      have hshift : (max (r.log2 + 1 + t - 53) (-1074) - t).toNat = 0 := by omega
      rw [hshift]
      exact Prod.ext rfl (add_zero t)
  · next hge =>
      obtain rfl : r = 2 * 2 ^ 52 := by omega
      have hlog : (2 * 2 ^ 52).log2 = 53 := by rw [← pow_succ', Nat.log2_two_pow]
      have hshift : (max ((2 * 2 ^ 52).log2 + 1 + t - 53) (-1074) - t).toNat = 1 := by omega
      rw [hshift]
      exact Prod.ext (shiftRightOne_even _ _ _) rfl

/-- In the unit that is chosen for it, a number is below `2^53`, and at least `2^52` if that unit is
not the least one. -/
theorem shifted_bounds {m k : ℕ} {e t : ℤ} (hm : 0 < m)
    (ht : t = max (m.log2 + 1 + e - 53) (-1074)) (hk : t = e + k) :
    (m : ℚ) / 2 ^ k < 2 ^ 53 ∧ (t = -1074 ∨ 2 ^ 52 ≤ (m : ℚ) / 2 ^ k) := by
  have hpow : (0 : ℚ) < 2 ^ k := by positivity
  constructor
  · have hlt : m < 2 ^ (53 + k) :=
      Nat.lt_log2_self.trans_le (Nat.pow_le_pow_right (by decide) (by omega))
    rw [div_lt_iff₀ hpow, ← pow_add]
    exact_mod_cast hlt
  · refine or_iff_not_imp_left.mpr fun hne => ?_
    have hle : 2 ^ (52 + k) ≤ m :=
      (Nat.pow_le_pow_right (by decide) (by omega)).trans (Nat.log2_self_le hm.ne')
    rw [le_div_iff₀ hpow, ← pow_add]
    exact_mod_cast hle

theorem abs_apply (sign : UnpackedFloat.Sign) (m : ℕ) (e : ℤ) :
    |(sign.apply m : ℚ) * 2 ^ e| = m * 2 ^ e := by
  have hpow : (0 : ℚ) < 2 ^ e := by positivity
  cases sign <;> simp [UnpackedFloat.Sign.apply, abs_mul, abs_of_pos hpow]

theorem rounds_roundWithAccuracy (sign : UnpackedFloat.Sign) {m : ℕ} {e : ℤ} (hm : 0 < m)
    (he : e ≤ max (m.log2 + 1 + e - 53) (-1074)) :
    Rounds (sign.apply m * 2 ^ e) (UnpackedFloat.roundWithAccuracy .binary64 sign m e .exact) := by
  obtain ⟨t, ht⟩ : ∃ t, t = max ((m.log2 : ℤ) + 1 + e - 53) (-1074) := ⟨_, rfl⟩
  obtain ⟨k, hk⟩ : ∃ k : ℕ, t = e + k := ⟨(t - e).toNat, by omega⟩
  obtain ⟨em, hem⟩ : ∃ em, em = ExtendedMantissa.ofMantissaAndAccuracy m .exact >>> k := ⟨_, rfl⟩
  have hfirst : UnpackedFloat.shiftToTargetExponent .binary64 m e .exact = (em, t) := by
    rw [UnpackedFloat.shiftToTargetExponent, targetExponent_eq, ← ht,
      UnpackedFloat.shiftToExponent, hem]
    have hshift : (t - e).toNat = k := by omega
    rw [hshift, hk]
  have hrep : Represents em (m / 2 ^ k) := by
    rw [hem]
    exact (represents_exact m).shiftRight k
  obtain ⟨hlt, hfull⟩ := shifted_bounds hm ht hk
  have hrounded := hrep.rounded
  have hexact : |(sign.apply m : ℚ) * 2 ^ e| = m / 2 ^ k * 2 ^ t := by
    rw [abs_apply, hk, zpow_add₀ (by norm_num), zpow_natCast]
    field_simp
  have hle : em.roundedMantissa ≤ 2 ^ 53 := hrounded.le_of_lt (by exact_mod_cast hlt)
  have hfull' : t = -1074 ∨ 2 ^ 52 ≤ em.roundedMantissa := by
    refine hfull.imp_right fun hbig => (hrounded.le_iff_of_even (by decide)).mpr ?_
    push_cast
    linarith
  have hlow : -1074 ≤ t := ht ▸ le_max_right _ _
  have hsecond := shiftToTargetExponent_rounded hle hlow hfull'
  have near : ∀ {w : ℚ}, w = em.roundedMantissa * 2 ^ t → RoundsTo |(sign.apply m : ℚ) * 2 ^ e| w :=
    fun hw => ⟨_, _, t, hexact, hw, hrounded, hlt, hlow, hfull⟩
  simp only [UnpackedFloat.roundWithAccuracy, hfirst, hsecond]
  by_cases hsmall : em.roundedMantissa < 2 ^ 53
  · simp only [if_pos hsmall]
    split
    · next hzero =>
        refine ⟨rfl, trivial, near ?_⟩
        rw [hzero]
        simp [exactly]
    · exact ⟨rfl, ⟨hsmall, hlow, hfull'⟩, near (abs_apply ..)⟩
  · simp only [if_neg hsmall]
    refine ⟨rfl, ⟨by decide, by omega, .inr le_rfl⟩, near ?_⟩
    have hfilled : em.roundedMantissa = 2 ^ 53 := by omega
    show |(sign.apply (2 ^ 52 : ℕ) : ℚ) * 2 ^ (t + 1)| = em.roundedMantissa * 2 ^ t
    rw [abs_apply, hfilled, zpow_add₀ (by norm_num)]
    push_cast
    ring

/-! ## Operations -/

theorem Rounds.self {u : UnpackedFloat} (hfinite : u.isFinite = true) (h : Canonical u) :
    Rounds (exactly u) u := by
  refine ⟨hfinite, h, ?_⟩
  cases u with
  | notANumber => cases hfinite
  | infinity s => cases hfinite
  | zero s =>
      have hzero : |(0 : ℚ)| = 0 * 2 ^ (-1074 : ℤ) := by rw [abs_zero, zero_mul]
      exact ⟨0, 0, -1074, hzero, by exact_mod_cast hzero, .self 0, by norm_num, by simp⟩
  | finite sign m e hm =>
      obtain ⟨hsmall, hlow, hfull⟩ := h
      refine ⟨m, m, e, abs_apply .., abs_apply .., .self m, by exact_mod_cast hsmall, hlow, ?_⟩
      exact hfull.imp_right fun hbig => by exact_mod_cast hbig

theorem rounds_zero (sign : UnpackedFloat.Sign) : Rounds 0 (.zero sign) :=
  Rounds.self (u := .zero sign) rfl trivial

theorem exactly_neg (u : UnpackedFloat) : exactly u.neg = -exactly u := by
  cases u with
  | notANumber => exact neg_zero.symm
  | infinity sign => exact neg_zero.symm
  | zero sign => exact neg_zero.symm
  | finite sign m e hm =>
      cases sign with
      | negative =>
          show (UnpackedFloat.Sign.positive.apply m : ℚ) * 2 ^ e = _
          simp [exactly, UnpackedFloat.Sign.apply]
      | positive =>
          show (UnpackedFloat.Sign.negative.apply m : ℚ) * 2 ^ e = _
          simp [exactly, UnpackedFloat.Sign.apply]

theorem log2_shiftLeft {m : ℕ} (hm : 0 < m) (n : ℕ) : (m <<< n).log2 = m.log2 + n := by
  induction n with
  | zero => rfl
  | succ n ih =>
      have hpos : m <<< n ≠ 0 := by
        rw [Nat.shiftLeft_eq]
        positivity
      rw [Nat.shiftLeft_succ, Nat.log2_two_mul hpos, ih, Nat.add_assoc]

/-- Shifted to a smaller exponent, a mantissa stands for the same number. -/
theorem apply_shiftLeft (sign : UnpackedFloat.Sign) (m : ℕ) (e : ℤ) (n : ℕ) :
    (sign.apply (m <<< n : ℕ) : ℚ) * 2 ^ (e - n) = sign.apply m * 2 ^ e := by
  have hshift : ((m <<< n : ℕ) : ℚ) * 2 ^ (e - n) = m * 2 ^ e := by
    rw [Nat.shiftLeft_eq, zpow_sub₀ (by norm_num), zpow_natCast]
    push_cast
    field_simp
  cases sign <;> simp only [UnpackedFloat.Sign.apply, Int.cast_neg, Int.cast_natCast, neg_mul,
    hshift]

theorem rounds_round (sign : UnpackedFloat.Sign) {m : ℕ} (hm : 0 < m) (e : ℤ) :
    Rounds (sign.apply m * 2 ^ e) (UnpackedFloat.round .binary64 sign m e) := by
  rw [UnpackedFloat.round, targetExponent_eq]
  simp only [UnpackedFloat.decreaseExponent]
  generalize hn : (e - max (m.log2 + 1 + e - 53) (-1074)).toNat = n
  have hpos : 0 < m <<< n := by
    rw [Nat.shiftLeft_eq]
    positivity
  rw [← apply_shiftLeft sign m e n]
  apply rounds_roundWithAccuracy sign hpos
  rw [log2_shiftLeft hm]
  omega

theorem rounds_normalize (n : ℤ) (e : ℤ) (sign : UnpackedFloat.Sign) :
    Rounds (n * 2 ^ e) (UnpackedFloat.normalize .binary64 n e sign) := by
  rw [UnpackedFloat.normalize]
  split
  · next hlt =>
      have hneg : n < 0 := compare_lt_iff_lt.mp hlt
      have hround := rounds_round .negative (m := (-n).toNat) (by omega) e
      have happly : UnpackedFloat.Sign.negative.apply ((-n).toNat : ℕ) = n := by
        show -(((-n).toNat : ℕ) : ℤ) = n
        omega
      rwa [happly] at hround
  · next heq =>
      obtain rfl : n = 0 := compare_eq_iff_eq.mp heq
      rw [Int.cast_zero, zero_mul]
      exact rounds_zero sign
  · next hgt =>
      have hpos : 0 < n := compare_gt_iff_gt.mp hgt
      have hround := rounds_round .positive (m := n.toNat) (by omega) e
      have happly : UnpackedFloat.Sign.positive.apply (n.toNat : ℕ) = n := by
        show ((n.toNat : ℕ) : ℤ) = n
        omega
      rwa [happly] at hround

theorem rounds_sub {u v : UnpackedFloat} (hu : u.isFinite = true) (hv : v.isFinite = true)
    (hcu : Canonical u) (hcv : Canonical v) :
    Rounds (exactly u - exactly v) (UnpackedFloat.sub .binary64 u v) := by
  cases u with
  | notANumber => cases hu
  | infinity s => cases hu
  | zero s =>
      cases v with
      | notANumber => cases hv
      | infinity t => cases hv
      | zero t =>
          show Rounds (0 - 0) (if s == -t then .zero s else .zero .positive)
          rw [sub_zero]
          split <;> exact rounds_zero _
      | finite t m e hm =>
          have hself := Rounds.self (u := .finite (-t) m e hm) rfl hcv
          have hneg := exactly_neg (.finite t m e hm)
          rw [UnpackedFloat.neg, ← zero_sub] at hneg
          rwa [hneg] at hself
  | finite s m e hm =>
      cases v with
      | notANumber => cases hv
      | infinity t => cases hv
      | zero t =>
          have hself := Rounds.self hu hcu
          rwa [← sub_zero (exactly _)] at hself
      | finite t m' e' hm' =>
          have hshift := apply_shiftLeft s m e (e - min e e').toNat
          have hshift' := apply_shiftLeft t m' e' (e' - min e e').toNat
          have hround := rounds_normalize (s.apply (m <<< (e - min e e').toNat : ℕ) -
            t.apply (m' <<< (e' - min e e').toNat : ℕ)) (min e e') .positive
          have hleft : e - ((e - min e e').toNat : ℕ) = min e e' := by omega
          have hright : e' - ((e' - min e e').toNat : ℕ) = min e e' := by omega
          rw [hleft] at hshift
          rw [hright] at hshift'
          rwa [Int.cast_sub, sub_mul, hshift, hshift'] at hround

/-! ## Below a power of two -/

/-- A number is rounded to less than a power of two just when it is below that power by more than
half a unit of the floats before it. -/
theorem RoundsTo.lt_iff {v w : ℚ} (h : RoundsTo v w) {p : ℤ} (hp : -1021 ≤ p) :
    w < 2 ^ p ↔ v < 2 ^ p - 2 ^ (p - 54) := by
  obtain ⟨q, r, t, hv, hw, hrounded, hlt, hlow, hfull⟩ := h
  obtain ⟨x, hx⟩ : ∃ x : ℚ, x = 2 ^ (p - 54) := ⟨_, rfl⟩
  have hpos : 0 < x := hx ▸ by positivity
  have hpower : (2 : ℚ) ^ p = 2 ^ 54 * x := by
    rw [hx, ← zpow_natCast, ← zpow_add₀ (by norm_num)]
    congr 1
    omega
  rw [hv, hw, ← hx, hpower]
  rcases lt_trichotomy t (p - 53) with hless | heq | hmore
  · have hunit : (2 : ℚ) ^ t ≤ x := hx ▸ zpow_le_zpow_right₀ (by norm_num) (by omega)
    have hr : (r : ℚ) ≤ 2 ^ 53 := by
      have hle : r ≤ 2 ^ 53 := hrounded.le_of_lt (by exact_mod_cast hlt)
      exact_mod_cast hle
    have hleft : (r : ℚ) * 2 ^ t ≤ 2 ^ 53 * x := by gcongr
    have hright : q * 2 ^ t ≤ 2 ^ 53 * x := by gcongr
    constructor <;> intro <;> linarith
  · have hunit : (2 : ℚ) ^ t = 2 * x := by
      rw [heq, hx, ← zpow_one_add₀ (by norm_num)]
      congr 1
      omega
    have hreached := hrounded.le_iff_of_even (n := 2 ^ 53) (by decide)
    have htwo : 0 < 2 * x := by positivity
    have hleft : (r : ℚ) * (2 * x) < 2 ^ 54 * x ↔ r < 2 ^ 53 := by
      rw [show (2 : ℚ) ^ 54 * x = 2 ^ 53 * (2 * x) by ring, mul_lt_mul_iff_left₀ htwo]
      norm_cast
    have hright : q * (2 * x) < 2 ^ 54 * x - x ↔ q < 2 ^ 53 - 1 / 2 := by
      rw [show (2 : ℚ) ^ 54 * x - x = (2 ^ 53 - 1 / 2) * (2 * x) by ring,
        mul_lt_mul_iff_left₀ htwo]
    rw [hunit, hleft, hright, ← not_le, ← not_le, hreached]
    push_cast
    rfl
  · have hunit : 4 * x ≤ (2 : ℚ) ^ t := by
      have hfour : 4 * x = (2 : ℚ) ^ (p - 52) := by
        rw [hx, show (4 : ℚ) = 2 ^ (2 : ℤ) by norm_num, ← zpow_add₀ (by norm_num)]
        congr 1
        omega
      exact hfour ▸ zpow_le_zpow_right₀ (by norm_num) (by omega)
    have hq : (2 : ℚ) ^ 52 ≤ q := hfull.resolve_left (by omega)
    have hr : (2 : ℚ) ^ 52 ≤ r := by
      have := (hrounded.le_iff_of_even (n := 2 ^ 52) (by decide)).mpr (by push_cast; linarith)
      exact_mod_cast this
    have hleft : 2 ^ 52 * (4 * x) ≤ (r : ℚ) * 2 ^ t := by gcongr
    have hright : 2 ^ 52 * (4 * x) ≤ q * 2 ^ t := by gcongr
    constructor <;> intro <;> linarith

/-! ## Differences of floats -/

theorem exactly_abs (u : UnpackedFloat) : exactly u.abs = |exactly u| := by
  cases u with
  | finite sign m e hm => exact (abs_apply sign m e).symm
  | _ => exact abs_zero.symm

theorem pow_le_of_exponent {m : ℕ} (hm : 0 < m) {p e : ℤ} (h : p ≤ e) :
    (2 : ℚ) ^ p ≤ m * 2 ^ e := by
  have hone : (1 : ℚ) ≤ m := by exact_mod_cast hm
  calc (2 : ℚ) ^ p ≤ 2 ^ e := zpow_le_zpow_right₀ (by norm_num) h
    _ ≤ m * 2 ^ e := le_mul_of_one_le_left (by positivity) hone

/-- Packed, a finite number is what it was before, its sign aside, or it is infinite and was
large. -/
theorem unpack_abs {u : UnpackedFloat} (hfinite : u.isFinite = true) (h : Canonical u) {x : Float}
    (hx : x.toModel = Float.Model.pack u) :
    x.abs.toModel.unpack = u.abs ∨
      x.abs.toModel.unpack = .infinity .positive ∧ (2 : ℚ) ^ (972 : ℤ) ≤ |exactly u| := by
  have habs : x.abs.toModel.unpack = (Float.Model.pack (Float.Model.pack u).unpack.abs).unpack := by
    rw [← hx]
    rfl
  rw [habs]
  cases u with
  | notANumber => cases hfinite
  | infinity sign => cases hfinite
  | zero sign =>
      rw [unpack_pack_zero]
      exact .inl (unpack_pack_zero .positive)
  | finite sign m e hm =>
      by_cases he : e ≤ 971
      · rw [unpack_pack_finite sign hm h he]
        exact .inl (unpack_pack_finite .positive hm h he)
      · rw [unpack_pack_of_large sign hm (by omega)]
        refine .inr ⟨unpack_pack_infinity .positive, ?_⟩
        rw [exactly, abs_apply]
        exact pow_le_of_exponent hm (by omega)

theorem canonical_abs {u : UnpackedFloat} (h : Canonical u) : Canonical u.abs := by
  cases u <;> exact h

theorem isFinite_abs {u : UnpackedFloat} (h : u.isFinite = true) : u.abs.isFinite = true := by
  cases u <;> exact h

/-- The infinite is not below a finite float. -/
theorem orderRanks_infinity_ne_lt {v : UnpackedFloat} (h : v.isFinite = true) :
    orderRanks (rank (.infinity .positive)) (rank v) ≠ .lt := by
  cases v with
  | notANumber => cases h
  | infinity sign => cases h
  | zero sign => simp [rank, orderRanks_eq_lt_iff]
  | finite sign m e hm => cases sign <;> simp [rank, orderRanks_eq_lt_iff]

/-- The distance of two finite floats is below a power of two just when the distance of their
numbers is, but for half a unit of the floats before that power. -/
theorem abs_sub_lt_iff {x y d : Float} (hx : x.isFinite = true) (hy : y.isFinite = true)
    (hd : d.isFinite = true) {p : ℤ} (hlow : -1021 ≤ p) (hhigh : p ≤ 972) (hp : value d = 2 ^ p) :
    (x - y).abs < d ↔ |value x - value y| < 2 ^ p - 2 ^ (p - 54) := by
  have hnumber : (x - y).abs.isNaN = false :=
    isNaN_abs (isNaN_sub (isNaN_of_isFinite hx) (isNaN_of_isFinite hy) (.inl hx))
  have hrounds := rounds_sub (u := x.toModel.unpack) (v := y.toModel.unpack) hx hy
    (canonical_unpack _) (canonical_unpack _)
  have hdiff : (x - y).toModel = Float.Model.pack
      (UnpackedFloat.sub .binary64 x.toModel.unpack y.toModel.unpack) := rfl
  rw [lt_iff_rank hnumber (isNaN_of_isFinite hd), value, value, ← hrounds.near.lt_iff hlow, ← hp]
  rcases unpack_abs hrounds.finite hrounds.canonical hdiff with habs | ⟨habs, hlarge⟩
  · rw [habs, orderRanks_iff_exactly (isFinite_abs hrounds.finite) hd
      (canonical_abs hrounds.canonical) (canonical_unpack _), exactly_abs]
    rfl
  · have hle : value d ≤ 2 ^ (972 : ℤ) := by
      rw [hp]
      exact zpow_le_zpow_right₀ (by norm_num) hhigh
    rw [habs]
    exact iff_of_false (orderRanks_infinity_ne_lt hd) (hle.trans hlarge).not_gt

/-! ## Whole numbers -/

theorem RoundsTo.lt_double {v w : ℚ} (h : RoundsTo v w) {p : ℤ} (hp : -1022 ≤ p)
    (hv : v < 2 ^ p) : w < 2 ^ (p + 1) := by
  refine (h.lt_iff (by omega)).mpr (hv.trans_le ?_)
  have hunit : (2 : ℚ) ^ (p + 1 - 54) ≤ 2 ^ p := zpow_le_zpow_right₀ (by norm_num) (by omega)
  have hdouble : (2 : ℚ) ^ (p + 1) = 2 ^ p + 2 ^ p := by
    rw [zpow_add_one₀ (by norm_num)]
    ring
  linarith

theorem Rounds.unpack_pack {v : ℚ} {u : UnpackedFloat} (h : Rounds v u) {p : ℤ} (hlow : -1022 ≤ p)
    (hhigh : p ≤ 971) (hv : |v| < 2 ^ p) : (Float.Model.pack u).unpack = u := by
  have hsmall := h.near.lt_double hlow hv
  obtain ⟨hfinite, hcanonical, -⟩ := h
  cases u with
  | notANumber => cases hfinite
  | infinity sign => cases hfinite
  | zero sign => exact unpack_pack_zero sign
  | finite sign m e hm =>
      refine unpack_pack_finite sign hm hcanonical (not_lt.mp fun hlarge => ?_)
      rw [exactly, abs_apply] at hsmall
      exact absurd hsmall (pow_le_of_exponent hm (by omega)).not_gt

theorem rounds_of_large (sign : UnpackedFloat.Sign) {m : ℕ} (hm : 2 ^ 52 ≤ m) (e : ℤ) :
    Rounds (sign.apply m * 2 ^ e) (UnpackedFloat.roundWithAccuracy .binary64 sign m e .exact) := by
  have hpos : 0 < m := (Nat.two_pow_pos 52).trans_le hm
  have hlog : 52 ≤ m.log2 := (Nat.le_log2 hpos.ne').mpr hm
  exact rounds_roundWithAccuracy sign hpos (by omega)

theorem unpack_one : ∃ h, (Float.exactlyRepresentablePowersOfTen[0]).toModel.unpack =
    .finite .positive (2 ^ 52) (-52) h := by
  have hpacked : (Float.exactlyRepresentablePowersOfTen[0]).toModel =
      Float.Model.pack (.finite .positive (2 ^ 52) (-52) (by decide)) := by decide +kernel
  have hunpacked := unpack_pack_finite .positive (by decide) ⟨by decide, by decide, .inr le_rfl⟩
    (by decide : (-52 : ℤ) ≤ 971)
  exact ⟨by decide, by rw [hpacked, hunpacked]⟩

/-- Taken once, a number that is not too large stays finite. -/
theorem isFinite_mul_one {x y : Float} (hx : x.isFinite = true) {p : ℤ} (hlow : -1022 ≤ p)
    (hhigh : p ≤ 971) (hvalue : |value x| < 2 ^ p) {hm : 0 < 2 ^ 52}
    (hy : y.toModel.unpack = .finite .positive (2 ^ 52) (-52) hm) : (x * y).isFinite = true := by
  show (Float.Model.pack (UnpackedFloat.mul .binary64 x.toModel.unpack
    y.toModel.unpack)).unpack.isFinite = true
  rw [value] at hvalue
  rw [hy]
  have hfinite : x.toModel.unpack.isFinite = true := hx
  revert hvalue hfinite
  generalize x.toModel.unpack = u
  intro hvalue hfinite
  cases u with
  | notANumber => cases hfinite
  | infinity sign => cases hfinite
  | zero sign =>
      rw [UnpackedFloat.mul, unpack_pack_zero]
      rfl
  | finite sign m e hm =>
      have hlarge : 2 ^ 52 ≤ m * 2 ^ 52 := Nat.le_mul_of_pos_left _ hm
      have hround := rounds_of_large (sign * .positive) hlarge (e + -52)
      have hsame : (((m * 2 ^ 52 : ℕ) : ℚ) * 2 ^ (e + -52)) = m * 2 ^ e := by
        rw [zpow_add₀ (by norm_num)]
        push_cast
        norm_num
        ring
      rw [exactly, abs_apply, ← hsame, ← abs_apply (sign * .positive)] at hvalue
      rw [UnpackedFloat.mul, hround.unpack_pack hlow hhigh hvalue]
      exact hround.finite

theorem abs_natCast_lt {n : ℕ} (hn : n < 2 ^ 64) : |(n : ℚ) * 2 ^ (0 : ℤ)| < 2 ^ (64 : ℤ) := by
  have hcast : (n : ℚ) < 2 ^ 64 := by exact_mod_cast hn
  simpa using hcast

theorem isFinite_toFloat (n : UInt64) :
    n.toFloat.isFinite = true ∧ |value n.toFloat| < 2 ^ (65 : ℤ) := by
  have hround := rounds_normalize n.toNat 0 .positive
  have hv := abs_natCast_lt n.toNat_lt
  have hunpacked : n.toFloat.toModel.unpack =
      UnpackedFloat.normalize .binary64 n.toNat 0 .positive :=
    hround.unpack_pack (by decide) (by decide) hv
  constructor
  · show n.toFloat.toModel.unpack.isFinite = true
    rw [hunpacked]
    exact hround.finite
  · rw [value, hunpacked]
    exact hround.near.lt_double (by decide) hv

/-- Written with digits and rounded, a whole number of 64 bits is finite. -/
theorem isFinite_roundScientific {n : ℕ} (hn : n < 2 ^ 64) :
    (Float.Model.pack (UnpackedFloat.ofScientific .binary64 n 0)).unpack.isFinite = true := by
  rw [UnpackedFloat.ofScientific]
  split
  · rw [unpack_pack_zero]
    rfl
  next hne =>
  have hrange : (0 : ℤ) < 2 ^ Float.Model.Format.binary64.exponentBits := by positivity
  rw [if_neg (by decide), if_neg (by omega), if_pos (by decide)]
  have hbits : Float.Model.Format.binary64.mantissaBits = 53 := rfl
  simp only [UnpackedFloat.mul, hbits, Int.toNat_zero, pow_zero, mul_one, Nat.cast_ofNat, add_zero]
  have hlarge : 2 ^ 52 ≤ n <<< 53 := by
    rw [Nat.shiftLeft_eq]
    omega
  have hround := rounds_of_large (.positive * .positive) hlarge (-53)
  have hvalue : ((n <<< 53 : ℕ) : ℚ) * 2 ^ (-53 : ℤ) = n * 2 ^ (0 : ℤ) := by
    rw [Nat.shiftLeft_eq, Nat.cast_mul, mul_assoc, Nat.cast_pow, ← zpow_natCast,
      Nat.cast_ofNat, ← zpow_add₀ (by norm_num)]
    rfl
  have hv := abs_natCast_lt hn
  rw [abs_of_nonneg (by positivity), ← hvalue, ← abs_apply (.positive * .positive)] at hv
  rw [hround.unpack_pack (by decide) (by decide) hv]
  exact hround.finite

theorem isFinite_ofScientific {n : ℕ} (hn : n < 2 ^ 64) :
    (Float.ofScientific n false 0).isFinite = true := by
  rw [Float.ofScientific]
  split
  · obtain ⟨hfinite, hvalue⟩ := isFinite_toFloat n.toUInt64
    obtain ⟨hpos, hone⟩ := unpack_one
    simp only [Bool.false_eq_true, if_false]
    exact isFinite_mul_one hfinite (by decide) (by decide) hvalue hone
  · exact isFinite_roundScientific hn

theorem isFinite_nearest (negative : Bool) {n : ℕ} (hn : n < 2 ^ 64) :
    (nearest negative n 0).isFinite = true := by
  have hlength : (toString n).length ≤ 20 := Nat.repr_length n 20 (by decide) (by omega)
  have hzero : (0.0 : Float).isFinite = true := by decide +kernel
  have hsigned : ∀ magnitude : Float, magnitude.isFinite = true →
      (if negative then -magnitude else magnitude).isFinite = true := by
    intro magnitude h
    split
    · exact isFinite_neg h
    · exact h
  unfold nearest
  apply hsigned
  split
  · exact hzero
  rw [if_neg (by omega), if_neg (by decide)]
  have hsame : n * Nat.pow 10 (0 : ℤ).natAbs = n := Nat.mul_one n
  rw [hsame]
  exact isFinite_ofScientific hn

end FlowEngine.Decimal
