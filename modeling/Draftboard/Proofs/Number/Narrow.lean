import Draftboard.Proofs.Number.Unit

/-!
# Draftboard.Proofs.Number.Narrow

Numbers from zero to one in 32 bits.

* What stands for at most one is rounded to at most one in 32 bits (`round_le_one`): one is a multiple of
  every unit that is rounded to.
* Packed into 32 bits, such a number has no sign and an exponent field of at most 127, with no
  mantissa beside the largest; so what is unpacked is from zero to one (`unitParts_pack`,
  `inUnit32_of_unitParts`).
* So narrowing leads no number out of the interval (`inUnit32_narrow`), and what is no number stays
  none (`not_inUnit32_narrow`).
-/

namespace Draftboard.Exact

open Float.Model (UnpackedFloat Format)
open Float.Model.UnpackedFloat

/-! ### Rounding -/

/-- Shifting bits out makes no number larger. -/
theorem shiftToExponent_le (m : ℕ) (e t : ℤ) :
    (shiftToExponent m e .exact t).1.mantissa * (2 : ℝ) ^ (shiftToExponent m e .exact t).2 ≤
      m * 2 ^ e := by
  have hlocated : Located ((m : ℝ) * 2 ^ e / 2 ^ e) m .exact := mul_div_cancel_right₀ _ (by positivity)
  obtain ⟨em, hshift, hloc⟩ := hlocated.shift (t := max e t) (le_max_left e t)
  have hsame : shiftToExponent m e .exact t = shiftToExponent m e .exact (max e t) := by
    unfold shiftToExponent
    rw [show (max e t - e).toNat = (t - e).toNat by omega]
  rw [hsame, hshift]
  have hlow := hloc.bounds.1
  rwa [le_div_iff₀ (by positivity)] at hlow

/-- The first bit of what stands for at most one does. -/
theorem log2_add_le {n : ℕ} {t : ℤ} (hn : n ≠ 0) (h : (n : ℝ) * 2 ^ t ≤ 1) :
    (n.log2 : ℤ) + t ≤ 0 := by
  have hlow : (2 : ℝ) ^ n.log2 ≤ n := by exact_mod_cast Nat.log2_self_le hn
  have hpow : (2 : ℝ) ^ ((n.log2 : ℤ) + t) ≤ 2 ^ (0 : ℤ) := by
    rw [zpow_add₀ two_ne_zero, zpow_natCast, zpow_zero]
    exact (mul_le_mul_of_nonneg_right hlow (by positivity)).trans h
  exact (zpow_le_zpow_iff_right₀ one_lt_two).1 hpow

/-- Parts that stand for a zero or for at most one. -/
def AtMostOne (u : UnpackedFloat) : Prop :=
  u = .zero .positive ∨ ∃ n t hn, u = .finite .positive n t hn ∧ realOf u ≤ 1

/-- What stands for at most one is rounded to at most one in 32 bits. -/
theorem round_le_one {m : ℕ} {e : ℤ} (hm : 0 < m) (h : (m : ℝ) * 2 ^ e ≤ 1) :
    AtMostOne (round Format.binary32 .positive m e) := by
  obtain ⟨n, f, hround, hn, hf, hreal⟩ := exists_round_eq Format.binary32 .positive hm.ne' e
  rw [← hreal] at h
  rw [hround]
  generalize ht : Format.binary32.targetExponent (Float.Model.totalExponent n f) = t at hf
  have hlocated : Located ((n : ℝ) * 2 ^ f / 2 ^ f) n .exact := mul_div_cancel_right₀ _ (by positivity)
  obtain ⟨em, hshift, hloc⟩ := hlocated.shift hf
  have hrounded : HalfEven _ em.roundedMantissa := hloc.halfEven
  -- The unit that is rounded to is one divided by a whole number.
  obtain ⟨k, rfl⟩ : ∃ k : ℕ, t = -(k : ℤ) := by
    have hlog := log2_add_le hn h
    have htarget : t ≤ 0 := by
      change max ((n.log2 : ℤ) + 1 + f - 24) (-149) = t at ht
      omega
    exact ⟨(-t).toNat, by omega⟩
  have hle : (em.roundedMantissa : ℝ) * 2 ^ (-(k : ℤ)) ≤ 1 := by
    have hk : em.roundedMantissa ≤ 2 ^ k := by
      refine hrounded.le_of_lt ?_
      rw [zpow_neg, zpow_natCast, div_inv_eq_mul]
      have hmul := mul_le_mul_of_nonneg_right h (by positivity : (0 : ℝ) ≤ 2 ^ k)
      push_cast
      linarith
    rw [zpow_neg, zpow_natCast, ← div_eq_mul_inv, div_le_one (by positivity)]
    exact_mod_cast hk
  have hfinal := shiftToExponent_le em.roundedMantissa (-(k : ℤ))
    (Format.binary32.targetExponent (Float.Model.totalExponent em.roundedMantissa (-(k : ℤ))))
  unfold roundWithAccuracy
  rw [shiftToTargetExponent, ht, hshift]
  dsimp only
  rw [shiftToTargetExponent]
  generalize shiftToExponent em.roundedMantissa (-(k : ℤ)) .exact _ = final at hfinal
  by_cases h0 : final.1.mantissa = 0
  · rw [dif_pos h0]
    exact .inl rfl
  · rw [dif_neg h0]
    exact .inr ⟨_, _, _, rfl, hfinal.trans hle⟩

/-! ### Bits -/

/-- The parts of a number from zero to one in 32 bits. -/
def UnitParts (u : UnpackedFloat) : Prop :=
  (∃ s, u = .zero s) ∨
    ∃ m e hm, u = .finite .positive m e hm ∧ (e < -23 ∨ e = -23 ∧ m = 2 ^ 23)

theorem unpackSign_packComponents_positive (e : BitVec 8) (m : BitVec 23) :
    unpackSign (packComponents Format.binary32 .positive e m) = 0#1 := by
  have hbits : (packComponents Format.binary32 .positive e m).toNat =
      (0 * 2 ^ 8 + e.toNat) * 2 ^ 23 + m.toNat := by
    unfold packComponents
    rw [toNat_append, toNat_append]
    rfl
  have he := e.isLt
  have hm := m.isLt
  apply BitVec.eq_of_toNat_eq
  unfold unpackSign
  simp only [BitVec.extractLsb, BitVec.toNat_cast, BitVec.extractLsb'_toNat,
    Nat.shiftRight_eq_div_pow, hbits]
  show _ / 2 ^ 31 % 2 = 0
  omega

/-- Without a sign, and with at most the exponent of one and no mantissa beside it, bits stand for a number
from zero to one. -/
theorem unitParts_unpack {b : BitVec Format.binary32.numBits} (hsign : unpackSign b = 0#1)
    (hexponent : (unpackExponent b).toNat < 127 ∨
      (unpackExponent b).toNat = 127 ∧ unpackMantissa b = 0#23) :
    UnitParts (Float.Model.UnpackedFloat.unpack Format.binary32 b) := by
  have hbias : ((Format.binary32.exponentBias : ℕ) : ℤ) = 127 := rfl
  have hwidth : ((Format.binary32.mantissaBitsWithoutImplicit : ℕ) : ℤ) = 23 := rfl
  have hs : Sign.ofBitVec (unpackSign b) = .positive := by
    rw [hsign]
    rfl
  have hfull : unpackExponent b ≠ -1#8 := by
    intro h
    have hnat : (unpackExponent b).toNat = 255 := congrArg BitVec.toNat h
    omega
  generalize hu : Float.Model.UnpackedFloat.unpack Format.binary32 b = u
  unfold Float.Model.UnpackedFloat.unpack at hu
  dsimp only at hu
  rw [hs, if_neg hfull] at hu
  by_cases hzero : unpackExponent b = 0#8
  · rw [if_pos hzero] at hu
    by_cases hm : unpackMantissa b = 0#23
    · rw [dif_pos hm] at hu
      exact .inl ⟨_, hu.symm⟩
    · rw [dif_neg hm] at hu
      have hnat : (unpackExponent b).toNat = 0 := congrArg BitVec.toNat hzero
      exact .inr ⟨_, _, _, hu.symm, .inl (by omega)⟩
  · rw [if_neg hzero] at hu
    refine .inr ⟨_, _, _, hu.symm, ?_⟩
    rcases hexponent with hlt | ⟨heq, hm⟩
    · left
      omega
    · right
      refine ⟨by omega, ?_⟩
      rw [hm]
      rfl

/-- What is rounded to at most one is packed so. -/
theorem unitParts_pack {u : UnpackedFloat} (h : AtMostOne u) :
    UnitParts (Float.Model.UnpackedFloat.unpack Format.binary32
      (Float.Model.UnpackedFloat.pack Format.binary32 u)) := by
  rcases h with rfl | ⟨n, t, hn, rfl, hle⟩
  · exact .inl ⟨_, rfl⟩
  · have hbias : ((Format.binary32.exponentBias : ℕ) : ℤ) = 127 := rfl
    have hwidth : ((Format.binary32.mantissaBitsWithoutImplicit : ℕ) : ℤ) = 23 := rfl
    have hbits : 2 ^ Format.binary32.exponentBits = 256 := rfl
    change (n : ℝ) * 2 ^ t ≤ 1 at hle
    have hlog := log2_add_le hn.ne' hle
    unfold Float.Model.UnpackedFloat.pack
    dsimp only
    rw [if_neg (by rw [hbits]; omega)]
    split
    -- A full mantissa has the exponent of one at most, and then it is that of one.
    · rename_i hlength
      have hlength' : n.log2 + 1 = 24 := hlength
      refine unitParts_unpack (unpackSign_packComponents_positive _ _) ?_
      rw [unpackExponent_packComponents, unpackMantissa_packComponents]
      have hexponent : (BitVec.ofNat Format.binary32.exponentBits
          (t + Format.binary32.exponentBias + Format.binary32.mantissaBitsWithoutImplicit).toNat).toNat =
          (t + 150).toNat := by
        rw [BitVec.toNat_ofNat, hbits]
        omega
      rw [hexponent]
      rcases lt_or_ge t (-23) with ht | ht
      · left
        omega
      · obtain rfl : t = -23 := by omega
        refine .inr ⟨rfl, ?_⟩
        have hlow : 2 ^ 23 ≤ n := (Nat.le_log2 hn.ne').1 (by omega)
        have hhigh : n ≤ 2 ^ 23 := by
          rw [zpow_neg, ← div_eq_mul_inv, div_le_one (by positivity)] at hle
          exact_mod_cast hle
        obtain rfl : n = 2 ^ 23 := le_antisymm hhigh hlow
        rfl
    · refine unitParts_unpack (unpackSign_packComponents_positive _ _) (.inl ?_)
      rw [unpackExponent_packComponents]
      decide

/-! ### Narrowing -/

/-- A number of 32 bits from zero to one. -/
def InUnit32 (x : Float32) : Prop := 0 ≤ x ∧ x ≤ 1

theorem le32_iff {x y : Float32} : x ≤ y ↔ (x.toModel.unpack).le y.toModel.unpack = true :=
  ⟨fun h => of_decide_eq_true h, fun h => decide_eq_true h⟩

theorem inUnit32_of_unitParts {x : Float32} (h : UnitParts x.toModel.unpack) : InUnit32 x := by
  have hone : (1 : Float32).toModel.unpack = .finite .positive (2 ^ 23) (-23) (by decide) := rfl
  have hzero : (0 : Float32).toModel.unpack = .zero .positive := rfl
  unfold InUnit32
  rw [le32_iff, le32_iff, hone, hzero]
  rcases h with ⟨s, hx⟩ | ⟨m, e, hm, hx, he⟩ <;> rw [hx]
  · exact ⟨rfl, rfl⟩
  · refine ⟨rfl, ?_⟩
    show ((compare e (-23)).then (compare m (2 ^ 23))).isLE = true
    rcases he with he | ⟨rfl, rfl⟩
    · rw [Int.compare_eq_lt.2 he]
      rfl
    · rfl

/-- Narrowing leads no number out of the interval. -/
theorem inUnit32_narrow {x : Float} (h : InUnit x) : InUnit32 (narrow x) := by
  obtain ⟨hfinite, h0, h1⟩ := inUnit_iff.1 h
  apply inUnit32_of_unitParts
  rcases cases_of_isFinite hfinite with ⟨s, hxu⟩ | ⟨s, m, e, hm, hxu⟩
  · have hzero : (narrow x).toModel.unpack = .zero s := by
      rw [narrow, hxu]
      cases s <;> rfl
    exact .inl ⟨s, hzero⟩
  · rw [real, hxu, realOf_finite] at h0 h1
    have hpos : (0 : ℝ) < m * 2 ^ e := by positivity
    cases s with
    | negative => exact absurd h0 (not_le.2 (neg_neg_of_pos hpos))
    | positive =>
      have hround : (narrow x).toModel.unpack = Float.Model.UnpackedFloat.unpack Format.binary32
          (Float.Model.UnpackedFloat.pack Format.binary32 (round Format.binary32 .positive m e)) := by
        rw [narrow, hxu]
        rfl
      rw [hround]
      exact unitParts_pack (round_le_one hm h1)

/-- What is no number is narrowed to none. -/
theorem not_inUnit32_narrow {x : Float} (h : unpack x = .notANumber) : ¬ InUnit32 (narrow x) := by
  have hnan : (narrow x).toModel.unpack = .notANumber := by
    rw [narrow, h]
    rfl
  rintro ⟨h0, -⟩
  rw [le32_iff, hnan] at h0
  cases h0

end Draftboard.Exact
