import FlowEngine.Proofs.Decimal.Float
/-!
# `FlowEngine.Proofs.Decimal.Value` — the numbers that floats stand for

A finite float stands for a whole number times a power of two.  Unpacked, it fits (`Fits`): its
mantissa has all of its 53 bits, or its exponent is the least there is.  A number has one such form
only, and of two of them the one with the larger exponent, then the one with the larger mantissa,
stands for the larger number.  So finite floats are ordered as the numbers they stand for
(`lt_iff_value`, `le_iff_value`).

What fits is packed and unpacked as it is (`unpack_pack_finite`), unless its exponent is beyond the
range; then it becomes infinite (`unpack_pack_of_large`).
-/

namespace FlowEngine.Decimal

open Float.Model (UnpackedFloat)

/-- The number that an unpacked float stands for; what is infinite or no number stands for none, and
counts as zero. -/
def exactly : UnpackedFloat → ℚ
  | .finite sign m e _ => sign.apply m * 2 ^ e
  | _ => 0

/-- The number that a float stands for. -/
def value (x : Float) : ℚ := exactly x.toModel.unpack

/-! ## Forms -/

/-- A mantissa and an exponent as they are stored. -/
structure Fits (m : ℕ) (e : ℤ) : Prop where
  small : m < 2 ^ 53
  low : -1074 ≤ e
  full : e = -1074 ∨ 2 ^ 52 ≤ m

/-- Of a finite float, mantissa and exponent are such as they are stored. -/
def Canonical : UnpackedFloat → Prop
  | .finite _ m e _ => Fits m e
  | _ => True

variable {m m' : ℕ} {e e' : ℤ}

theorem Fits.lt_of_exponent_lt (h : Fits m e) (h' : Fits m' e') (hlt : e < e') :
    (m : ℚ) * 2 ^ e < m' * 2 ^ e' := by
  have hfull : 2 ^ 52 ≤ m' := by
    have hlow := h.low
    exact h'.full.resolve_left (by omega)
  have hpow : (2 : ℚ) ^ (e + 1) ≤ 2 ^ e' := zpow_le_zpow_right₀ (by norm_num) (by omega)
  have hsmall : (m : ℚ) < 2 ^ 53 := by exact_mod_cast h.small
  have hlarge : (2 ^ 52 : ℚ) ≤ m' := by exact_mod_cast hfull
  calc (m : ℚ) * 2 ^ e < 2 ^ 53 * 2 ^ e := by gcongr
    _ = 2 ^ 52 * 2 ^ (e + 1) := by rw [zpow_add₀ (by norm_num)]; ring
    _ ≤ m' * 2 ^ e' := by gcongr

/-- What fits is ordered by its exponent, and then by its mantissa. -/
theorem Fits.lt_iff (h : Fits m e) (h' : Fits m' e') :
    (m : ℚ) * 2 ^ e < m' * 2 ^ e' ↔ e < e' ∨ e = e' ∧ m < m' := by
  rcases lt_trichotomy e e' with hlt | rfl | hgt
  · simp [hlt, h.lt_of_exponent_lt h' hlt]
  · have hpos : (0 : ℚ) < 2 ^ e := by positivity
    simp [hpos]
  · have hlt := h'.lt_of_exponent_lt h hgt
    simp [hgt.not_gt, hgt.ne', hlt.le]

theorem orderRanks_eq_lt_iff {a b : Int × Int × Int} :
    orderRanks a b = .lt ↔
      a.1 < b.1 ∨ a.1 = b.1 ∧ (a.2.1 < b.2.1 ∨ a.2.1 = b.2.1 ∧ a.2.2 < b.2.2) := by
  simp [orderRanks, Ordering.then_eq_lt, compare_lt_iff_lt]

/-- Finite floats are ordered by their places as the numbers are that they stand for. -/
theorem orderRanks_iff_exactly {u v : UnpackedFloat} (hu : u.isFinite = true)
    (hv : v.isFinite = true) (hcu : Canonical u) (hcv : Canonical v) :
    orderRanks (rank u) (rank v) = .lt ↔ exactly u < exactly v := by
  have hpos : ∀ {m : ℕ} (e : ℤ), 0 < m → (0 : ℚ) < m * 2 ^ e := by
    intro m e hm
    positivity
  rw [orderRanks_eq_lt_iff]
  cases u with
  | notANumber => cases hu
  | infinity s => cases hu
  | zero s =>
      cases v with
      | notANumber => cases hv
      | infinity t => cases hv
      | zero t => simp [rank, exactly]
      | finite t m e hm =>
          have := hpos e hm
          cases t <;> simp [rank, exactly, UnpackedFloat.Sign.apply, this, this.le]
  | finite s m e hm =>
      have hs := hpos e hm
      cases v with
      | notANumber => cases hv
      | infinity t => cases hv
      | zero t =>
          cases s <;> simp [rank, exactly, UnpackedFloat.Sign.apply, hs, hs.le]
      | finite t m' e' hm' =>
          have ht := hpos e' hm'
          cases s with
          | negative =>
              cases t with
              | negative =>
                  have hfits := Fits.lt_iff hcv hcu
                  simp [rank, exactly, UnpackedFloat.Sign.apply, hfits, eq_comm]
              | positive =>
                  have hlt : -((m : ℚ) * 2 ^ e) < m' * 2 ^ e' := by linarith
                  simp [rank, exactly, UnpackedFloat.Sign.apply, hlt]
          | positive =>
              cases t with
              | negative =>
                  have hle : -((m' : ℚ) * 2 ^ e') ≤ m * 2 ^ e := by linarith
                  simp [rank, exactly, UnpackedFloat.Sign.apply, hle]
              | positive =>
                  have hfits := Fits.lt_iff hcu hcv
                  simp [rank, exactly, UnpackedFloat.Sign.apply, hfits]

/-! ## Unpacked -/

theorem toNat_implicit (b : BitVec 52) : (1#1 ++ b).toNat = 2 ^ 52 + b.toNat := by
  rw [BitVec.toNat_append, ← Nat.shiftLeft_add_eq_or_of_lt b.isLt]
  rfl

/-- What a finite float is unpacked to fits, and its exponent is within the range. -/
theorem fits_unpack {x : Float.Model} {sign : UnpackedFloat.Sign} {hm : 0 < m}
    (h : x.unpack = .finite sign m e hm) : Fits m e ∧ e ≤ 971 := by
  have hmantissa : (@UnpackedFloat.unpackMantissa .binary64 x.toBits.toBitVec).toNat < 2 ^ 52 :=
    (@UnpackedFloat.unpackMantissa .binary64 x.toBits.toBitVec).isLt
  have hexponent : (@UnpackedFloat.unpackExponent .binary64 x.toBits.toBitVec).toNat < 2048 :=
    (@UnpackedFloat.unpackExponent .binary64 x.toBits.toBitVec).isLt
  have hbias : (Float.Model.Format.binary64.exponentBias : ℤ) = 1023 := rfl
  rw [Float.Model.unpack, UnpackedFloat.unpack] at h
  simp only [hbias] at h
  split at h
  · split at h <;> cases h
  next hones =>
  split at h
  · next hzero =>
      split at h
      · cases h
      · cases h
        refine ⟨⟨by omega, ?_, .inl ?_⟩, ?_⟩ <;> simp [hzero]
  · next hzero =>
      have hpos : (@UnpackedFloat.unpackExponent .binary64 x.toBits.toBitVec).toNat ≠ 0 :=
        fun h0 => hzero (BitVec.eq_of_toNat_eq h0)
      have hlt : (@UnpackedFloat.unpackExponent .binary64 x.toBits.toBitVec).toNat ≠ 2047 :=
        fun h1 => hones (BitVec.eq_of_toNat_eq h1)
      cases h
      refine ⟨⟨?_, by omega, .inr ?_⟩, by omega⟩ <;> rw [toNat_implicit] <;> omega

theorem canonical_unpack (x : Float.Model) : Canonical x.unpack := by
  cases h : x.unpack with
  | finite sign m e hm => exact (fits_unpack h).1
  | _ => trivial

theorem lt_iff_value {x y : Float} (hx : x.isFinite = true) (hy : y.isFinite = true) :
    x < y ↔ value x < value y := by
  rw [lt_iff_rank (isNaN_of_isFinite hx) (isNaN_of_isFinite hy)]
  exact orderRanks_iff_exactly hx hy (canonical_unpack _) (canonical_unpack _)

theorem le_iff_value {x y : Float} (hx : x.isFinite = true) (hy : y.isFinite = true) :
    x ≤ y ↔ value x ≤ value y := by
  rw [← not_lt_iff (isNaN_of_isFinite hy) (isNaN_of_isFinite hx), lt_iff_value hy hx, not_lt]

/-! ## Packed -/

@[simp] theorem unpackSign_packComponents {spec : Float.Model.Format}
    (sign : UnpackedFloat.Sign) (k : BitVec spec.exponentBits)
    (b : BitVec spec.mantissaBitsWithoutImplicit) :
    UnpackedFloat.unpackSign (UnpackedFloat.packComponents spec sign k b) = sign.toBitVec := by
  ext i hi
  obtain rfl : i = 0 := by omega
  simp [UnpackedFloat.unpackSign, UnpackedFloat.packComponents, BitVec.getLsbD_append,
    BitVec.getElem_append]

@[simp] theorem ofBitVec_toBitVec (sign : UnpackedFloat.Sign) :
    UnpackedFloat.Sign.ofBitVec sign.toBitVec = sign := by
  cases sign <;> rfl

/-- The first of the 53 bits of a mantissa is not stored, and is put back. -/
theorem unpack_normal (sign : UnpackedFloat.Sign) {k m : ℕ} (hpos : 0 < k) (hk : k < 2047)
    (hm : 2 ^ 52 ≤ m) (hm' : m < 2 ^ 53) :
    UnpackedFloat.unpack .binary64
        (UnpackedFloat.packComponents .binary64 sign (BitVec.ofNat _ k) (BitVec.ofNat _ m)) =
      .finite sign m (k - 1075) (by omega) := by
  have hbits : (BitVec.ofNat 11 k).toNat = k := by
    rw [BitVec.toNat_ofNat, Nat.mod_eq_of_lt (by omega)]
  have hones : BitVec.ofNat 11 k ≠ -1#11 := by
    rw [ne_eq, ← BitVec.toNat_inj, hbits]
    exact hk.ne
  have hzero : BitVec.ofNat 11 k ≠ 0#11 := by
    rw [ne_eq, ← BitVec.toNat_inj, hbits]
    exact hpos.ne'
  have hmantissa : (1#1 ++ BitVec.ofNat 52 m).toNat = m := by
    rw [toNat_implicit, BitVec.toNat_ofNat]
    omega
  have hbias : (Float.Model.Format.binary64.exponentBias : ℤ) = 1023 := rfl
  simp only [UnpackedFloat.unpack, UnpackedFloat.unpackMantissa_packComponents,
    UnpackedFloat.unpackExponent_packComponents, unpackSign_packComponents, ofBitVec_toBitVec,
    if_neg hones, if_neg hzero, hmantissa, hbits, hbias]
  rfl

theorem unpack_subnormal (sign : UnpackedFloat.Sign) {m : ℕ} (hpos : 0 < m) (hm : m < 2 ^ 52) :
    UnpackedFloat.unpack .binary64
        (UnpackedFloat.packComponents .binary64 sign 0#_ (BitVec.ofNat _ m)) =
      .finite sign m (-1074) hpos := by
  have hmantissa : (BitVec.ofNat 52 m).toNat = m := by
    rw [BitVec.toNat_ofNat, Nat.mod_eq_of_lt hm]
  have hzero : BitVec.ofNat 52 m ≠ 0#52 := by
    rw [ne_eq, ← BitVec.toNat_inj, hmantissa]
    exact hpos.ne'
  have hones : 0#11 ≠ -1#11 := by decide
  simp only [UnpackedFloat.unpack, UnpackedFloat.unpackMantissa_packComponents,
    UnpackedFloat.unpackExponent_packComponents, unpackSign_packComponents, ofBitVec_toBitVec,
    if_neg hones, dif_neg hzero, hmantissa]
  rfl

theorem unpack_pack_zero (sign : UnpackedFloat.Sign) :
    (Float.Model.pack (.zero sign)).unpack = .zero sign := by
  show UnpackedFloat.unpack .binary64 (UnpackedFloat.pack .binary64 (.zero sign)) = _
  simp [UnpackedFloat.pack, UnpackedFloat.packedZero, UnpackedFloat.unpack]

theorem unpack_packedInfinity (sign : UnpackedFloat.Sign) :
    UnpackedFloat.unpack .binary64 (UnpackedFloat.packedInfinity .binary64 sign) =
      .infinity sign := by
  simp [UnpackedFloat.packedInfinity, UnpackedFloat.unpack]

theorem unpack_pack_infinity (sign : UnpackedFloat.Sign) :
    (Float.Model.pack (.infinity sign)).unpack = .infinity sign := unpack_packedInfinity sign

theorem unpack_pack_finite (sign : UnpackedFloat.Sign) (hm : 0 < m) (h : Fits m e) (he : e ≤ 971) :
    (Float.Model.pack (.finite sign m e hm)).unpack = .finite sign m e hm := by
  show UnpackedFloat.unpack .binary64 (UnpackedFloat.pack .binary64 (.finite sign m e hm)) = _
  obtain ⟨hsmall, hlow, hfull⟩ := h
  have hbias : (Float.Model.Format.binary64.exponentBias : ℤ) = 1023 := rfl
  have hlog : m.log2 < 53 ↔ m < 2 ^ 53 := Nat.log2_lt hm.ne'
  have hlog' : m.log2 < 52 ↔ m < 2 ^ 52 := Nat.log2_lt hm.ne'
  have hbits : m.log2 + 1 = Float.Model.Format.binary64.mantissaBits ↔ 2 ^ 52 ≤ m := by
    show m.log2 + 1 = 53 ↔ 2 ^ 52 ≤ m
    omega
  simp only [UnpackedFloat.pack, hbias, hbits]
  rw [if_neg (by omega)]
  split
  · next hnormal =>
      rw [unpack_normal sign (by omega) (by omega) hnormal hsmall]
      congr 1
      omega
  · next hsubnormal =>
      rw [unpack_subnormal sign hm (Nat.lt_of_not_le hsubnormal)]
      congr 1
      omega

theorem value_of_packed {x : Float} {sign : UnpackedFloat.Sign} {hm : 0 < m}
    (hx : x.toModel = Float.Model.pack (.finite sign m e hm)) (h : Fits m e) (he : e ≤ 971) :
    x.isFinite = true ∧ value x = sign.apply m * 2 ^ e := by
  have hunpacked : x.toModel.unpack = .finite sign m e hm := by
    rw [hx, unpack_pack_finite sign hm h he]
  constructor
  · show x.toModel.unpack.isFinite = true
    rw [hunpacked]
    rfl
  · rw [value, hunpacked]
    rfl

theorem unpack_pack_of_large (sign : UnpackedFloat.Sign) (hm : 0 < m) (he : 971 < e) :
    (Float.Model.pack (.finite sign m e hm)).unpack = .infinity sign := by
  show UnpackedFloat.unpack .binary64 (UnpackedFloat.pack .binary64 (.finite sign m e hm)) = _
  have hbias : (Float.Model.Format.binary64.exponentBias : ℤ) = 1023 := rfl
  simp only [UnpackedFloat.pack, hbias]
  rw [if_pos (by omega)]
  exact unpack_packedInfinity sign

theorem isFinite_neg {x : Float} (h : x.isFinite = true) : (-x).isFinite = true := by
  have hfinite : x.toModel.unpack.isFinite = true := h
  show (Float.Model.pack x.toModel.unpack.neg).unpack.isFinite = true
  cases hu : x.toModel.unpack with
  | notANumber =>
      rw [hu] at hfinite
      cases hfinite
  | infinity sign =>
      rw [hu] at hfinite
      cases hfinite
  | zero sign =>
      rw [UnpackedFloat.neg, unpack_pack_zero]
      rfl
  | finite sign m e hm =>
      obtain ⟨hfits, hrange⟩ := fits_unpack hu
      rw [UnpackedFloat.neg, unpack_pack_finite _ hm hfits hrange]
      rfl

end FlowEngine.Decimal
