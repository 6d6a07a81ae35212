import Mathlib.Tactic.Positivity
import Draftboard.Number.Decimal

/-!
# Draftboard.Proofs.Number.Binary

Numbers of 64 bits and their parts.

* `unpack_cases` lists what a pattern of bits can stand for. Every other fact about the parts of a
  number is read off it.
* A number is the pack of its parts (`pack_unpack`), and rounding leaves alone what is a number
  already (`roundWithAccuracy_exact`). Together they make one a unit of the multiplication
  (`mul_one`).
* A number below zero has its sign bit set. Neither the reading of a decimal nor a sum of squares
  sets it, nor the root of such a sum.
-/

namespace Draftboard.Exact

open Float.Model (UnpackedFloat Format)
open Float.Model.UnpackedFloat

/-! ### Bit fields -/

theorem toNat_append {v w : Nat} (a : BitVec v) (b : BitVec w) :
    (a ++ b).toNat = a.toNat * 2 ^ w + b.toNat := by
  rw [BitVec.toNat_append, ← Nat.shiftLeft_add_eq_or_of_lt b.isLt, Nat.shiftLeft_eq]

theorem toNat_packComponents (s : Sign) (e : BitVec 11) (m : BitVec 52) :
    (packComponents Format.binary64 s e m).toNat =
      (s.toBitVec.toNat * 2 ^ 11 + e.toNat) * 2 ^ 52 + m.toNat := by
  unfold packComponents
  rw [toNat_append, toNat_append]

theorem toNat_unpackMantissa (b : BitVec Format.binary64.numBits) :
    (unpackMantissa b).toNat = b.toNat % 2 ^ 52 := by
  simp [unpackMantissa, BitVec.extractLsb_toNat]

theorem toNat_unpackExponent (b : BitVec Format.binary64.numBits) :
    (unpackExponent b).toNat = b.toNat / 2 ^ 52 % 2 ^ 11 := by
  simp [unpackExponent, BitVec.extractLsb_toNat, Nat.shiftRight_eq_div_pow]

theorem toNat_unpackSign (b : BitVec Format.binary64.numBits) :
    (unpackSign b).toNat = b.toNat / 2 ^ 63 := by
  have hb : b.toNat < 2 ^ 64 := b.isLt
  unfold unpackSign
  simp only [BitVec.extractLsb, BitVec.toNat_cast, BitVec.extractLsb'_toNat,
    Nat.shiftRight_eq_div_pow]
  omega

@[simp] theorem toBitVec_ofBitVec (b : BitVec 1) : (Sign.ofBitVec b).toBitVec = b := by
  revert b; decide

@[simp] theorem unpackSign_packComponents (s : Sign) (e : BitVec 11) (m : BitVec 52) :
    unpackSign (packComponents Format.binary64 s e m) = s.toBitVec := by
  apply BitVec.eq_of_toNat_eq
  rw [toNat_unpackSign, toNat_packComponents]
  have := e.isLt; have := m.isLt
  omega

theorem packComponents_fields (b : BitVec Format.binary64.numBits) :
    packComponents Format.binary64 (Sign.ofBitVec (unpackSign b)) (unpackExponent b)
      (unpackMantissa b) = b := by
  apply BitVec.eq_of_toNat_eq
  have hb : b.toNat < 2 ^ 64 := b.isLt
  rw [toNat_packComponents, toBitVec_ofBitVec, toNat_unpackSign, toNat_unpackExponent,
    toNat_unpackMantissa]
  omega

theorem finite_congr {s : Sign} {m n : Nat} {e : Int} {hm : 0 < m} (hn : 0 < n) (h : m = n) :
    UnpackedFloat.finite s m e hm = .finite s n e hn := by
  subst h
  rfl

/-- The kinds of number that 64 bits can stand for. -/
theorem unpack_cases (b : BitVec Format.binary64.numBits) :
    let s := Sign.ofBitVec (unpackSign b)
    let u := Float.Model.UnpackedFloat.unpack Format.binary64 b
    (unpackExponent b = -1#11 ∧ unpackMantissa b = 0#52 ∧ u = .infinity s) ∨
    (unpackExponent b = -1#11 ∧ unpackMantissa b ≠ 0#52 ∧ u = .notANumber) ∨
    (unpackExponent b = 0#11 ∧ unpackMantissa b = 0#52 ∧ u = .zero s) ∨
    (unpackExponent b = 0#11 ∧ ∃ h, u = .finite s (unpackMantissa b).toNat (-1074) h) ∨
    ((unpackExponent b).toNat ≠ 0 ∧ (unpackExponent b).toNat ≠ 2047 ∧
      ∃ h, u = .finite s (2 ^ 52 + (unpackMantissa b).toNat)
        ((unpackExponent b).toNat - 1075) h) := by
  intro s u
  have hu : u = Float.Model.UnpackedFloat.unpack Format.binary64 b := rfl
  unfold Float.Model.UnpackedFloat.unpack at hu
  dsimp only at hu
  by_cases he : unpackExponent b = -1#11
  -- All ones in the exponent: an infinity, or no number.
  · rw [if_pos he] at hu
    by_cases hm : unpackMantissa b = 0#52
    · rw [if_pos hm] at hu
      exact .inl ⟨he, hm, hu⟩
    · rw [if_neg hm] at hu
      exact .inr (.inl ⟨he, hm, hu⟩)
  · rw [if_neg he] at hu
    have he' : (unpackExponent b).toNat ≠ 2047 := fun h => he (BitVec.eq_of_toNat_eq h)
    by_cases hz : unpackExponent b = 0#11
    -- All zeros in the exponent: a zero, or a number without the implicit bit.
    · rw [if_pos hz] at hu
      by_cases hm : unpackMantissa b = 0#52
      · rw [dif_pos hm] at hu
        exact .inr (.inr (.inl ⟨hz, hm, hu⟩))
      · rw [dif_neg hm, hz] at hu
        exact .inr (.inr (.inr (.inl ⟨hz, _, hu⟩)))
    · rw [if_neg hz] at hu
      have hz' : (unpackExponent b).toNat ≠ 0 := fun h => hz (BitVec.eq_of_toNat_eq h)
      have hm : (1#1 ++ unpackMantissa b).toNat = 2 ^ 52 + (unpackMantissa b).toNat := by
        rw [toNat_append]; rfl
      exact .inr (.inr (.inr (.inr ⟨hz', he', by omega, hu.trans (finite_congr _ hm)⟩)))

theorem pack_subnormal (s : Sign) (m : BitVec 52) (h : 0 < m.toNat) :
    Float.Model.UnpackedFloat.pack Format.binary64 (.finite s m.toNat (-1074) h) =
      packComponents Format.binary64 s 0#11 m := by
  have hlog : ¬ m.toNat.log2 + 1 = Format.binary64.mantissaBits := by
    have h52 : m.toNat.log2 < 52 := (Nat.log2_lt h.ne').2 m.isLt
    have h53 : Format.binary64.mantissaBits = 53 := rfl
    omega
  unfold Float.Model.UnpackedFloat.pack
  dsimp only
  rw [if_neg (by decide), if_neg hlog, BitVec.ofNat_toNat, BitVec.setWidth_eq]

theorem pack_normal (s : Sign) (e : BitVec 11) (m : BitVec 52) (h1 : e.toNat ≠ 2047)
    (h : 0 < 2 ^ 52 + m.toNat) :
    Float.Model.UnpackedFloat.pack Format.binary64
      (.finite s (2 ^ 52 + m.toNat) (e.toNat - 1075) h) =
      packComponents Format.binary64 s e m := by
  have hm := m.isLt
  have he := e.isLt
  have hlog : (2 ^ 52 + m.toNat).log2 + 1 = Format.binary64.mantissaBits := by
    have hge : 52 ≤ (2 ^ 52 + m.toNat).log2 := (Nat.le_log2 h.ne').2 (by omega)
    have hlt : (2 ^ 52 + m.toNat).log2 < 53 := (Nat.log2_lt h.ne').2 (by omega)
    have h53 : Format.binary64.mantissaBits = 53 := rfl
    omega
  have hexp : ((e.toNat : Int) - 1075 + Format.binary64.exponentBias +
      Format.binary64.mantissaBitsWithoutImplicit).toNat = e.toNat := by
    have hb : ((Format.binary64.exponentBias : Nat) : Int) = 1023 := rfl
    have hw : ((Format.binary64.mantissaBitsWithoutImplicit : Nat) : Int) = 52 := rfl
    omega
  unfold Float.Model.UnpackedFloat.pack
  dsimp only
  rw [hexp, if_neg (by omega), if_pos hlog]
  congr 1
  · rw [BitVec.ofNat_toNat, BitVec.setWidth_eq]
  · apply BitVec.eq_of_toNat_eq
    rw [BitVec.toNat_ofNat]
    omega

/-- Packing the parts of a number gives the number back. -/
theorem pack_unpack (x : Float) : pack (unpack x) = x := by
  obtain ⟨⟨⟨b⟩, hv⟩⟩ := x
  have hp := packComponents_fields b
  suffices h : Float.Model.UnpackedFloat.pack Format.binary64
      (Float.Model.UnpackedFloat.unpack Format.binary64 b) = b by
    unfold pack unpack Float.Model.pack Float.Model.unpack
    congr 2
    exact congrArg UInt64.ofBitVec h
  obtain ⟨he, hm, hu⟩ | ⟨he, hm, hu⟩ | ⟨he, hm, hu⟩ | ⟨he, h, hu⟩ | ⟨-, h1, h, hu⟩ :=
    unpack_cases b <;> rw [hu]
  · rw [he, hm] at hp
    exact hp
  -- There is one pattern only for what is no number.
  · exact (hv.eq_packedNaN he hm).symm
  · rw [he, hm] at hp
    exact hp
  · rw [he] at hp
    rw [pack_subnormal, hp]
  · rw [pack_normal _ _ _ h1, hp]

/-- A number is finite, infinite or none. -/
theorem isFinite_eq (x : Float) : x.isFinite = !(x.isNaN || x.isInf) := by
  show (unpack x).isFinite = !((unpack x).isNaN || (unpack x).isInf)
  cases unpack x <;> rfl

/-! ### Canonical numbers -/

/-- A mantissa and an exponent as a number of 64 bits has them. -/
structure Canonical (m : Nat) (e : Int) : Prop where
  pos : 0 < m
  lt : m < 2 ^ 53
  lower : -1074 ≤ e
  upper : e ≤ 971
  /-- The mantissa is short only where no smaller exponent is left. -/
  full : 2 ^ 52 ≤ m ∨ e = -1074

theorem canonical_of_unpack {x : Float} {s : Sign} {m : Nat} {e : Int} {h : 0 < m}
    (hx : unpack x = .finite s m e h) : Canonical m e := by
  obtain ⟨⟨⟨b⟩, hv⟩⟩ := x
  change Float.Model.UnpackedFloat.unpack Format.binary64 b = _ at hx
  have he : (@unpackExponent Format.binary64 b).toNat < 2 ^ 11 := BitVec.isLt _
  have hm : (@unpackMantissa Format.binary64 b).toNat < 2 ^ 52 := BitVec.isLt _
  obtain ⟨-, -, hu⟩ | ⟨-, -, hu⟩ | ⟨-, -, hu⟩ | ⟨-, h, hu⟩ | ⟨h0, h1, h, hu⟩ :=
    unpack_cases b <;> rw [hu] at hx <;> cases hx
  · exact ⟨h, by omega, by omega, by omega, .inr rfl⟩
  · exact ⟨h, by omega, by omega, by omega, .inl (by omega)⟩

/-- A canonical number has the exponent that rounding aims at. -/
theorem Canonical.targetExponent {m : Nat} {e : Int} (h : Canonical m e) :
    Format.binary64.targetExponent (Float.Model.totalExponent m e) = e := by
  show max (Float.Model.totalExponent m e - 53) (-1074) = e
  have hlt : m.log2 < 53 := (Nat.log2_lt h.pos.ne').2 h.lt
  have hlow := h.lower
  unfold Float.Model.totalExponent
  rcases h.full with hf | hf
  · have hge : 52 ≤ m.log2 := (Nat.le_log2 h.pos.ne').2 hf
    omega
  · omega

/-! ### Rounding what needs no rounding -/

theorem repeat_shiftRightOne (m n : Nat) :
    n.repeat ExtendedMantissa.shiftRightOne ⟨m * 2 ^ n, false, false⟩ = ⟨m, false, false⟩ := by
  induction n generalizing m with
  | zero => simp [Nat.repeat]
  | succ n ih =>
    have h2 : m * 2 ^ (n + 1) = m * 2 * 2 ^ n := by rw [Nat.pow_succ]; ac_rfl
    rw [h2, Nat.repeat, ih]
    simp [ExtendedMantissa.shiftRightOne]

theorem shiftToExponent_exact {m k : Nat} {e t : Int} (h : (t - e).toNat = k) :
    shiftToExponent (m * 2 ^ k) e .exact t = (⟨m, false, false⟩, e + k) := by
  subst h
  exact congrArg (·, e + ((t - e).toNat : Int)) (repeat_shiftRightOne m _)

theorem log2_mul_two_pow {m : Nat} (h : m ≠ 0) (k : Nat) : (m * 2 ^ k).log2 = m.log2 + k := by
  induction k with
  | zero => simp
  | succ k ih =>
    have hk : m * 2 ^ k ≠ 0 := Nat.mul_ne_zero h (by positivity)
    rw [Nat.pow_succ, ← Nat.mul_assoc, Nat.mul_comm _ 2, Nat.log2_two_mul hk, ih, Nat.add_assoc]

/-- A canonical number with zeros appended to its mantissa is rounded to itself. -/
theorem roundWithAccuracy_exact (s : Sign) {m : Nat} {e : Int} (h : Canonical m e) (k : Nat) :
    roundWithAccuracy Format.binary64 s (m * 2 ^ k) (e - k) .exact = .finite s m e h.pos := by
  have htotal : Float.Model.totalExponent (m * 2 ^ k) (e - k) = Float.Model.totalExponent m e := by
    unfold Float.Model.totalExponent
    rw [log2_mul_two_pow h.pos.ne']
    omega
  -- The zeros are shifted out first; the second shift then finds nothing to do.
  have h1 : shiftToTargetExponent Format.binary64 (m * 2 ^ k) (e - k) .exact =
      (⟨m, false, false⟩, e) := by
    unfold shiftToTargetExponent
    rw [htotal, h.targetExponent, shiftToExponent_exact (by omega)]
    congr 1
    omega
  have h2 : shiftToTargetExponent Format.binary64 m e .exact = (⟨m, false, false⟩, e) := by
    unfold shiftToTargetExponent
    have := shiftToExponent_exact (m := m) (k := 0) (e := e) (t := e) (by omega)
    simpa [h.targetExponent] using this
  have hrounded : ExtendedMantissa.roundedMantissa ⟨m, false, false⟩ = m := rfl
  unfold roundWithAccuracy
  rw [h1]
  dsimp only
  rw [hrounded, h2]
  exact dif_neg h.pos.ne'

theorem unpack_one : unpack 1 = .finite .positive (2 ^ 52) (-52) (by decide) := rfl

theorem mul_positive (s : Sign) : s * .positive = s := by cases s <;> rfl

/-- Multiplying by one changes no number. -/
theorem mul_one (x : Float) : x * 1 = x := by
  have hmul : x * 1 = pack (UnpackedFloat.mul Format.binary64 (unpack x) (unpack 1)) := rfl
  rw [hmul, unpack_one]
  conv_rhs => rw [← pack_unpack x]
  congr 1
  cases hx : unpack x with
  | infinity s => exact congrArg UnpackedFloat.infinity (mul_positive s)
  | notANumber => rfl
  | zero s => exact congrArg UnpackedFloat.zero (mul_positive s)
  | finite s m e h =>
    -- The mantissa of one is `2 ^ 52`, so that of the product ends in 52 zeros.
    show roundWithAccuracy Format.binary64 (s * .positive) (m * 2 ^ 52) (e - 52) .exact = _
    rw [mul_positive]
    exact roundWithAccuracy_exact s (canonical_of_unpack hx) 52

/-! ### Signs -/

/-- The sign that packing writes. -/
def signOf : UnpackedFloat → Sign
  | .infinity s | .zero s | .finite s .. => s
  | .notANumber => .positive

theorem isNegative_eq_false_of_positive {u : UnpackedFloat} (h : signOf u = .positive) :
    isNegative (pack u) = false := by
  have hs : unpackSign (Float.Model.UnpackedFloat.pack Format.binary64 u) = 0#1 := by
    unfold Float.Model.UnpackedFloat.pack packedInfinity packedNaN packedZero
    cases u with
    | finite s m e hm =>
      obtain rfl : s = .positive := h
      dsimp only
      split_ifs <;> exact unpackSign_packComponents ..
    | notANumber => exact unpackSign_packComponents ..
    | _ s =>
      obtain rfl : s = .positive := h
      exact unpackSign_packComponents ..
  have hu : unpack (pack u) = Float.Model.UnpackedFloat.unpack Format.binary64
    (Float.Model.UnpackedFloat.pack Format.binary64 u) := rfl
  have hsign : Sign.ofBitVec (unpackSign (Float.Model.UnpackedFloat.pack Format.binary64 u)) =
      .positive := by
    rw [hs]
    rfl
  have hcases := unpack_cases (Float.Model.UnpackedFloat.pack Format.binary64 u)
  unfold isNegative
  rw [hu]
  rw [hsign] at hcases
  obtain ⟨-, -, hu⟩ | ⟨-, -, hu⟩ | ⟨-, -, hu⟩ | ⟨-, h, hu⟩ | ⟨-, -, h, hu⟩ := hcases <;> rw [hu]

theorem unpack_zero : unpack 0 = .zero .positive := rfl

/-- Only a number with a sign is below zero. -/
theorem isNegative_of_lt_zero {x : Float} (h : x < 0) : isNegative x = true := by
  have hlt : (unpack x).lt (unpack 0) = true := of_decide_eq_true h
  rw [unpack_zero] at hlt
  unfold isNegative
  cases hx : unpack x with
  | notANumber => rw [hx] at hlt; exact hlt
  | infinity s =>
    cases s with
    | negative => rfl
    | positive => rw [hx] at hlt; exact hlt
  | zero s => rw [hx] at hlt; exact absurd hlt (by cases s <;> decide)
  | finite s m e hm =>
    cases s with
    | negative => rfl
    | positive => rw [hx] at hlt; exact hlt

theorem signOf_dite {p : Prop} [Decidable p] {x : p → UnpackedFloat} {y : ¬ p → UnpackedFloat}
    {s : Sign} (hx : ∀ h, signOf (x h) = s) (hy : ∀ h, signOf (y h) = s) :
    signOf (dite p x y) = s := by
  by_cases h : p
  · rw [dif_pos h]
    exact hx h
  · rw [dif_neg h]
    exact hy h

theorem signOf_ite {p : Prop} [Decidable p] {u v : UnpackedFloat} {s : Sign} (hu : signOf u = s)
    (hv : signOf v = s) : signOf (if p then u else v) = s :=
  signOf_dite (fun _ => hu) (fun _ => hv)

theorem signOf_roundWithAccuracy (s : Sign) (m : Nat) (e : Int) (a : Accuracy) :
    signOf (roundWithAccuracy Format.binary64 s m e a) = s := by
  unfold roundWithAccuracy
  exact signOf_dite (fun _ => rfl) (fun _ => rfl)

theorem signOf_unpack {x : Float} (h : isNegative x = false) : signOf (unpack x) = .positive := by
  unfold isNegative at h
  cases hx : unpack x with
  | notANumber => rfl
  | finite s | infinity s | zero s =>
    rw [hx] at h
    cases s with
    | negative => cases h
    | positive => rfl

theorem signOf_normalize {n : Int} (hn : 0 ≤ n) (e : Int) :
    signOf (normalize Format.binary64 n e .positive) = .positive := by
  unfold UnpackedFloat.normalize
  cases hc : compare n 0 with
  | lt => exact absurd (Int.compare_eq_lt.1 hc) (Int.not_lt.2 hn)
  | eq => rfl
  | gt => exact signOf_roundWithAccuracy ..

theorem mul_self_sign (s : Sign) : s * s = .positive := by cases s <;> rfl

/-- A square has no sign. -/
theorem isNegative_mul_self (x : Float) : isNegative (x * x) = false := by
  have hmul : x * x = pack (UnpackedFloat.mul Format.binary64 (unpack x) (unpack x)) := rfl
  rw [hmul]
  apply isNegative_eq_false_of_positive
  cases unpack x with
  | notANumber => rfl
  | infinity s => exact mul_self_sign s
  | zero s => exact mul_self_sign s
  | finite s m e h => exact (signOf_roundWithAccuracy ..).trans (mul_self_sign s)

/-- A product of numbers without a sign has none. -/
theorem isNegative_mul {x y : Float} (hx : isNegative x = false) (hy : isNegative y = false) :
    isNegative (x * y) = false := by
  have hmul : x * y = pack (UnpackedFloat.mul Format.binary64 (unpack x) (unpack y)) := rfl
  have hxs := signOf_unpack hx
  have hys := signOf_unpack hy
  rw [hmul]
  apply isNegative_eq_false_of_positive
  cases hxu : unpack x <;> cases hyu : unpack y <;> rw [hxu] at hxs <;> rw [hyu] at hys <;>
    cases hxs <;> cases hys <;> try rfl
  exact signOf_roundWithAccuracy ..

/-- A sum of numbers without a sign has none. -/
theorem isNegative_add {x y : Float} (hx : isNegative x = false) (hy : isNegative y = false) :
    isNegative (x + y) = false := by
  have hadd : x + y = pack (UnpackedFloat.add Format.binary64 (unpack x) (unpack y)) := rfl
  have hxs := signOf_unpack hx
  have hys := signOf_unpack hy
  rw [hadd]
  apply isNegative_eq_false_of_positive
  cases hxu : unpack x <;> cases hyu : unpack y <;> rw [hxu] at hxs <;> rw [hyu] at hys <;>
    cases hxs <;> cases hys <;> try rfl
  exact signOf_normalize (Int.add_nonneg (Int.natCast_nonneg _) (Int.natCast_nonneg _)) _

/-- A square that is added to a number without a sign, rounded once, has none. -/
theorem isNegative_fusedMulAdd_self (x : Float) {y : Float} (hy : isNegative y = false) :
    isNegative (fusedMulAdd x x y) = false := by
  have hys := signOf_unpack hy
  unfold fusedMulAdd
  split
  · rename_i hx hx' hyu
    obtain ⟨rfl, rfl, rfl⟩ := UnpackedFloat.finite.inj (hx.symm.trans hx')
    rw [hyu] at hys
    cases hys
    apply isNegative_eq_false_of_positive
    refine signOf_normalize (Int.add_nonneg ?_ (Int.natCast_nonneg _)) _
    rw [mul_self_sign]
    exact Int.natCast_nonneg _
  · exact isNegative_mul_self x
  · exact hy
  · exact isNegative_add (isNegative_mul_self x) hy

/-- The root of a number without a sign has none. -/
theorem isNegative_sqrt {x : Float} (h : isNegative x = false) : isNegative x.sqrt = false := by
  have hsqrt : x.sqrt = pack (UnpackedFloat.sqrt Format.binary64 (unpack x)) := rfl
  have hs := signOf_unpack h
  rw [hsqrt]
  apply isNegative_eq_false_of_positive
  cases hx : unpack x <;> rw [hx] at hs <;> cases hs <;> try rfl
  exact signOf_roundWithAccuracy ..

theorem isNegative_nearest (m : Nat) (e : Int) : isNegative (nearest .positive m e) = false := by
  unfold nearest
  split
  · exact isNegative_eq_false_of_positive rfl
  · exact isNegative_eq_false_of_positive (signOf_roundWithAccuracy ..)

/-- Rounding to a whole number makes no sign. -/
theorem isNegative_roundHalfAway {x : Float} (h : isNegative x = false) :
    isNegative (roundHalfAway x) = false := by
  have hs := signOf_unpack h
  unfold roundHalfAway
  split
  · rename_i hx
    rw [hx] at hs
    cases hs
    split
    · exact h
    · exact isNegative_nearest _ _
  · exact h

/-- The whole part of a number without a sign is not below zero. -/
theorem toInt_nonneg {x : Float} (h : isNegative x = false) : 0 ≤ toInt x := by
  have hs := signOf_unpack h
  have hclamp : ∀ n : Int, 0 ≤ n → 0 ≤ (Int64.ofIntClamp n).toInt := by
    intro n hn
    have hmin : Int64.minValue.toInt ≤ n := Int.le_trans (by decide) hn
    by_cases hmax : n ≤ Int64.maxValue.toInt
    · rwa [Int64.toInt_ofIntClamp hmin hmax]
    · rw [Int64.ofIntClamp, dif_pos hmin, dif_neg hmax]
      decide
  refine hclamp _ ?_
  cases hx : unpack x <;> rw [hx] at hs <;> cases hs
  · exact by decide
  · exact Int.le_refl 0
  · exact Int.le_refl 0
  · exact Int.natCast_nonneg _

theorem signOf_ofScientific (m : Nat) (e : Int) :
    signOf (UnpackedFloat.ofScientific Format.binary64 m e) = .positive := by
  -- The product and the quotient that a decimal is rounded from are of positive numbers.
  have hrounded := signOf_roundWithAccuracy .positive
  unfold UnpackedFloat.ofScientific
  refine signOf_dite (fun _ => rfl) fun _ => signOf_ite rfl (signOf_ite rfl (signOf_ite ?_ ?_))
  · exact hrounded _ _ _
  · exact hrounded _ _ _

/-- The number that a decimal is read as has no sign. -/
theorem isNegative_toFloat (d : Decimal) : isNegative d.toFloat = false :=
  isNegative_eq_false_of_positive (signOf_ofScientific d.digits d.exponent)

end Draftboard.Exact
