import Draftboard.Number.Scalar
import Draftboard.Proofs.Number.Equality

/-!
# Draftboard.Proofs.Number.Unit

Numbers from zero to one.

* Such a number is a finite one that stands for a real of the unit interval (`inUnit_iff`).
* Clamping moves every number into the interval and leaves what is no number (`inUnit_clamp`,
  `clamp_of_notANumber`).
* A mixture `c * t + b * (1 - t)` of two such numbers by a third is one too, although each of its steps is
  rounded (`InUnit.mix`): the two products do not exceed `t` and the rounded `1 - t`, the sum of these
  exceeds one by less than half the distance to the next number (`rest_lt`), and so it is rounded to one
  at most (`Rounds.le_one`).
-/

namespace Draftboard.Exact

open Float.Model (UnpackedFloat Format)
open Float.Model.UnpackedFloat

/-! ### Order -/

/-- Comparing the other way round gives the opposite order. -/
theorem compare_swap (u v : UnpackedFloat) : v.compare u = (u.compare v).map Ordering.swap := by
  cases u with
  | notANumber => cases v <;> rfl
  | zero s =>
    cases v with
    | notANumber | zero => rfl
    | infinity t | finite t => cases t <;> rfl
  | infinity s =>
    cases v with
    | notANumber => rfl
    | zero t | finite t => cases s <;> rfl
    | infinity t => cases s <;> cases t <;> rfl
  | finite s m e hm =>
    cases v with
    | notANumber => rfl
    | zero t => cases s <;> rfl
    | infinity t => cases t <;> rfl
    | finite t n f hn =>
      have hparts : (compare f e).then (compare n m) = ((compare e f).then (compare m n)).swap := by
        rw [Ordering.swap_then, Int.compare_swap, Nat.compare_swap]
      cases s <;> cases t
      · exact congrArg some (congrArg Ordering.swap hparts)
      · rfl
      · rfl
      · exact congrArg some hparts

theorem exists_compare {u v : UnpackedFloat} (hu : u ≠ .notANumber) (hv : v ≠ .notANumber) :
    ∃ o, u.compare v = some o := by
  cases u with
  | notANumber => exact absurd rfl hu
  | zero s =>
    cases v with
    | notANumber => exact absurd rfl hv
    | zero t => exact ⟨_, rfl⟩
    | infinity t | finite t => cases t <;> exact ⟨_, rfl⟩
  | infinity s =>
    cases v with
    | notANumber => exact absurd rfl hv
    | zero t | finite t | infinity t => cases s <;> exact ⟨_, rfl⟩
  | finite s m e hm =>
    cases v with
    | notANumber => exact absurd rfl hv
    | zero t => cases s <;> exact ⟨_, rfl⟩
    | infinity t => cases t <;> exact ⟨_, rfl⟩
    | finite t n f hn => cases s <;> cases t <;> exact ⟨_, rfl⟩

/-- Of two numbers one is at most the other. -/
theorem le_of_not_lt {x y : Float} (hx : unpack x ≠ .notANumber) (hy : unpack y ≠ .notANumber)
    (h : ¬ x < y) : y ≤ x := by
  obtain ⟨o, ho⟩ := exists_compare hx hy
  have hlt : o ≠ .lt := by
    rintro rfl
    exact h (decide_eq_true (p := (unpack x).lt (unpack y) = true)
      (by rw [UnpackedFloat.lt, ho]; rfl))
  have hle : (unpack y).le (unpack x) = true := by
    rw [UnpackedFloat.le, compare_swap, ho]
    cases o with
    | lt => exact absurd rfl hlt
    | eq | gt => rfl
  exact decide_eq_true hle

/-- Finite numbers are ordered as what they stand for. -/
theorem le_of_real_le {x y : Float} (hx : x.isFinite = true) (hy : y.isFinite = true)
    (h : real x ≤ real y) : x ≤ y := by
  have hpos : ∀ {m : ℕ} {e : ℤ}, 0 < m → (0 : ℝ) < m * 2 ^ e := fun hm => by positivity
  have hle : (unpack x).le (unpack y) = true := by
    unfold real at h
    rcases cases_of_isFinite hx with ⟨s, hxu⟩ | ⟨s, m, e, hm, hxu⟩ <;>
      rcases cases_of_isFinite hy with ⟨t, hyu⟩ | ⟨t, n, f, hn, hyu⟩ <;>
      rw [hxu, hyu] at h ⊢
    · rfl
    · cases t with
      | negative => exact absurd h (not_le.2 (neg_neg_of_pos (hpos hn)))
      | positive => rfl
    · cases s with
      | negative => rfl
      | positive => exact absurd h (not_le.2 (hpos hm))
    · have hcompares := (canonical_of_unpack hxu).compares (canonical_of_unpack hyu)
      cases s with
      | negative =>
        cases t with
        | negative =>
          have hne := hcompares.ne_lt.2 (neg_le_neg_iff.1 h)
          show ((compare e f).then (compare m n)).swap.isLE = true
          cases hc : (compare e f).then (compare m n) with
          | lt => exact absurd hc hne
          | eq | gt => rfl
        | positive => rfl
      | positive =>
        cases t with
        | negative => exact absurd h (not_le.2 ((neg_neg_of_pos (hpos hn)).trans (hpos hm)))
        | positive =>
          have hne := hcompares.ne_gt.2 h
          show ((compare e f).then (compare m n)).isLE = true
          cases hc : (compare e f).then (compare m n) with
          | gt => exact absurd hc hne
          | lt | eq => rfl
  exact decide_eq_true hle

/-! ### What is no number -/

theorem unpack_mul_of_notANumber (x : Float) {y : Float} (h : unpack y = .notANumber) :
    unpack (x * y) = .notANumber := by
  have hmul : x * y = pack (UnpackedFloat.mul Format.binary64 (unpack x) (unpack y)) := rfl
  have hnone : UnpackedFloat.mul Format.binary64 (unpack x) .notANumber = .notANumber := by
    cases unpack x <;> rfl
  rw [hmul, h, hnone]
  rfl

theorem unpack_add_of_notANumber {x : Float} (y : Float) (h : unpack x = .notANumber) :
    unpack (x + y) = .notANumber := by
  have hadd : x + y = pack (UnpackedFloat.add Format.binary64 (unpack x) (unpack y)) := rfl
  have hnone : UnpackedFloat.add Format.binary64 .notANumber (unpack y) = .notANumber := by
    cases unpack y <;> rfl
  rw [hadd, h, hnone]
  rfl

theorem unpack_div_of_notANumber {x : Float} (y : Float) (h : unpack x = .notANumber) :
    unpack (x / y) = .notANumber := by
  have hdiv : x / y = pack (UnpackedFloat.div Format.binary64 (unpack x) (unpack y)) := rfl
  have hnone : UnpackedFloat.div Format.binary64 .notANumber (unpack y) = .notANumber := by
    cases unpack y <;> rfl
  rw [hdiv, h, hnone]
  rfl

/-! ### Rounding -/

namespace Rounds

variable {q : ℝ} {x y : Float}

/-- Rounding leads past no number. -/
theorem le_of_le (h : Rounds q x) (hy : y.isFinite = true) (hq : q ≤ real y) : real x ≤ real y := by
  by_contra hlt
  have hnear := h.near y hy
  rw [abs_of_pos (by linarith), abs_of_nonneg (by linarith)] at hnear
  linarith

theorem ge_of_ge (h : Rounds q x) (hy : y.isFinite = true) (hq : real y ≤ q) : real y ≤ real x := by
  by_contra hlt
  have hnear := h.near y hy
  rw [abs_of_neg (by linarith), abs_of_nonpos (by linarith)] at hnear
  linarith

end Rounds

theorem real_zero : real 0 = 0 := real_pack_zero .positive

theorem real_one : real 1 = 1 := by
  rw [real, unpack_one, realOf_finite]
  norm_num [signed]

/-- The number after one is `2 ^ (-52)` away from it. -/
theorem add_le_of_one_lt {x : Float} (hx : x.isFinite = true) (h : 1 < real x) :
    1 + 2 ^ (-52 : ℤ) ≤ real x := by
  rcases cases_of_isFinite hx with ⟨s, hxu⟩ | ⟨s, m, e, hm, hxu⟩ <;> rw [real, hxu] at h ⊢
  · rw [realOf_zero] at h
    linarith
  · have hcanonical := canonical_of_unpack hxu
    have hpos : (0 : ℝ) < m * 2 ^ e := by positivity
    rw [realOf_finite] at h ⊢
    cases s with
    | negative =>
      change 1 < -(m * (2 : ℝ) ^ e) at h
      linarith
    | positive =>
      change 1 < m * (2 : ℝ) ^ e at h
      change 1 + 2 ^ (-52 : ℤ) ≤ m * (2 : ℝ) ^ e
      have hone : (2 : ℝ) ^ 52 * 2 ^ (-52 : ℤ) = 1 := by norm_num
      rcases lt_trichotomy e (-52) with he | rfl | he
      -- With a smaller exponent it would lie below one.
      · have hm53 : (m : ℝ) ≤ 2 ^ 53 := by exact_mod_cast hcanonical.lt.le
        have hsmall : m * (2 : ℝ) ^ e ≤ 2 ^ 53 * 2 ^ (-53 : ℤ) := by
          gcongr
          · norm_num
          · omega
        norm_num at hsmall
        linarith
      · have hlt : 2 ^ 52 < m := by
          have hreal : (2 : ℝ) ^ 52 < m := by
            by_contra hle
            have hmul := mul_le_mul_of_nonneg_right (not_lt.1 hle)
              (by positivity : (0 : ℝ) ≤ 2 ^ (-52 : ℤ))
            linarith
          exact_mod_cast hreal
        have hsucc : (2 : ℝ) ^ 52 + 1 ≤ m := by exact_mod_cast hlt
        have hmul := mul_le_mul_of_nonneg_right hsucc (by positivity : (0 : ℝ) ≤ 2 ^ (-52 : ℤ))
        linarith
      · have hfull : 2 ^ 52 ≤ m := hcanonical.full.resolve_right (by omega)
        have hm52 : (2 : ℝ) ^ 52 ≤ m := by exact_mod_cast hfull
        have hlarge : (2 : ℝ) ^ 52 * 2 ^ (-51 : ℤ) ≤ m * 2 ^ e := by
          gcongr
          · norm_num
          · omega
        norm_num at hlarge ⊢
        linarith

/-- What exceeds one by less than half the distance to the next number is rounded to one at most. -/
theorem Rounds.le_one {q : ℝ} {x : Float} (h : Rounds q x) (hq : q < 1 + 2 ^ (-53 : ℤ)) :
    real x ≤ 1 := by
  by_contra hlt
  have hnext := add_le_of_one_lt h.isFinite (not_le.1 hlt)
  have hnear := h.near 1 rfl
  have hhalf : (2 : ℝ) ^ (-52 : ℤ) = 2 * 2 ^ (-53 : ℤ) := by
    rw [← zpow_one_add₀ two_ne_zero]
    norm_num
  rw [real_one, abs_of_nonneg (by linarith), le_abs] at hnear
  have hpos : (0 : ℝ) < 2 ^ (-53 : ℤ) := by positivity
  rcases hnear with hnear | hnear <;> linarith

/-! ### The unit interval -/

/-- A number from zero to one. -/
def InUnit (x : Float) : Prop := 0 ≤ x ∧ x ≤ 1

instance (x : Float) : Decidable (InUnit x) := inferInstanceAs (Decidable (_ ∧ _))

theorem inUnit_iff {x : Float} : InUnit x ↔ x.isFinite = true ∧ 0 ≤ real x ∧ real x ≤ 1 := by
  constructor
  · rintro ⟨h0, h1⟩
    have hfinite : x.isFinite = true := by
      have hzero := zero_le_iff.1 h0
      have hone : (unpack x).le (unpack 1) = true := of_decide_eq_true h1
      rw [isFinite_of_unpack rfl]
      cases hxu : unpack x with
      | notANumber => rw [hxu] at hzero; exact hzero.elim
      | infinity s =>
        rw [hxu] at hzero hone
        cases s with
        | negative => exact hzero.elim
        | positive => cases hone
      | zero | finite => rfl
    have hlower := real_le_of_le (x := 0) rfl hfinite h0
    have hupper := real_le_of_le (y := 1) hfinite rfl h1
    rw [real_zero] at hlower
    rw [real_one] at hupper
    exact ⟨hfinite, hlower, hupper⟩
  · rintro ⟨hfinite, h0, h1⟩
    exact ⟨le_of_real_le rfl hfinite (real_zero.le.trans h0),
      le_of_real_le hfinite rfl (h1.trans real_one.ge)⟩

theorem not_inUnit_of_notANumber {x : Float} (h : unpack x = .notANumber) : ¬ InUnit x := by
  intro hx
  exact unpack_ne_of_isFinite (inUnit_iff.1 hx).1 h

theorem inUnit_zero : InUnit 0 := by decide +kernel

theorem inUnit_one : InUnit 1 := by decide +kernel

/-- What is no number is neither below zero nor above one, and clamping leaves it. -/
theorem clamp_of_notANumber {x : Float} (h : unpack x = .notANumber) : Scalar.clamp 0 1 x = x := by
  have hlow : ¬ x < 0 := fun hx => by
    have hlt : (unpack x).lt (unpack 0) = true := of_decide_eq_true hx
    rw [h] at hlt
    cases hlt
  have hhigh : ¬ 1 < x := fun hx => by
    have hlt : (unpack 1).lt (unpack x) = true := of_decide_eq_true hx
    rw [h] at hlt
    cases hlt
  exact (if_neg hlow).trans (if_neg hhigh)

/-- Clamping moves every number into the interval. -/
theorem inUnit_clamp {x : Float} (h : unpack x ≠ .notANumber) : InUnit (Scalar.clamp 0 1 x) := by
  unfold Scalar.clamp
  split
  · exact inUnit_zero
  · rename_i hlow
    split
    · exact inUnit_one
    · rename_i hhigh
      exact ⟨le_of_not_lt h nofun hlow, le_of_not_lt nofun h hhigh⟩

theorem not_clamp_lt_zero (x : Float) : ¬ Scalar.clamp 0 1 x < 0 := by
  unfold Scalar.clamp
  split
  · decide +kernel
  · split
    · decide +kernel
    · rename_i h _
      exact h

/-! ### Mixtures -/

/-- The difference of a number to one, as rounded, exceeds the exact one by less than half the distance of
one to the next number. -/
theorem rest_lt {t d : Float} (h0 : 0 ≤ real t) (h1 : real t ≤ 1) (h : Rounds (1 - real t) d) :
    real t + real d < 1 + 2 ^ (-53 : ℤ) := by
  have hnear := h.near 1 rfl
  have herror := h.error
  rw [real_one, show 1 - (1 - real t) = real t by ring, abs_of_nonneg h0] at hnear
  rw [abs_of_nonneg (a := 1 - real t) (by linarith)] at herror
  have hpos : (0 : ℝ) < 2 ^ (-53 : ℤ) := by positivity
  -- A small number is no further off than one is, and with a large one the difference is less than one.
  rcases lt_or_ge (real t) (2 ^ (-53 : ℤ)) with hsmall | hlarge
  · linarith [(abs_le.1 hnear).2]
  · have htiny : (2 : ℝ) ^ (-1075 : ℤ) < 2 ^ (-53 : ℤ) / 2 ^ 53 := by
      rw [show (2 : ℝ) ^ (-53 : ℤ) / 2 ^ 53 = 2 ^ (-106 : ℤ) by norm_num]
      exact zpow_lt_zpow_right₀ one_lt_two (by norm_num)
    have hhalf : (1 : ℝ) / 2 ^ 53 = 2 ^ (-53 : ℤ) := by norm_num
    have hrest : (1 - real t) / 2 ^ 53 ≤ 2 ^ (-53 : ℤ) - 2 ^ (-53 : ℤ) / 2 ^ 53 := by
      rw [sub_div, hhalf]
      gcongr
    have hupper := (abs_le.1 herror).2
    generalize (1 - real t) / 2 ^ 53 = r at hrest hupper
    generalize (2 : ℝ) ^ (-53 : ℤ) / 2 ^ 53 = w at hrest htiny
    linarith

/-- A mixture of two numbers from zero to one is one, although each of its steps is rounded. -/
theorem InUnit.mix {c t b : Float} (hc : InUnit c) (ht : InUnit t) (hb : InUnit b) :
    InUnit (c * t + b * (1 - t)) := by
  obtain ⟨hcf, hc0, hc1⟩ := inUnit_iff.1 hc
  obtain ⟨htf, ht0, ht1⟩ := inUnit_iff.1 ht
  obtain ⟨hbf, hb0, hb1⟩ := inUnit_iff.1 hb
  have hlimit : ∀ {q : ℝ}, 0 ≤ q → q ≤ 2 → |q| < overflow := fun h0 h2 => by
    rw [abs_of_nonneg h0]
    exact lt_overflow (h2.trans (by norm_num))
  -- A product is rounded to one that is no larger than the factor.
  have hproduct : ∀ {x y : Float}, x.isFinite = true → y.isFinite = true → 0 ≤ real x → real x ≤ 1 →
      0 ≤ real y → real y ≤ 1 →
        (x * y).isFinite = true ∧ 0 ≤ real (x * y) ∧ real (x * y) ≤ real y := by
    intro x y hxf hyf hx0 hx1 hy0 hy1
    have hle : real x * real y ≤ real y := mul_le_of_le_one_left hy0 hx1
    have hrounds := rounds_mul hxf hyf (hlimit (by positivity) (by linarith))
    have hzero := hrounds.ge_of_ge (y := 0) rfl (by rw [real_zero]; positivity)
    rw [real_zero] at hzero
    exact ⟨hrounds.isFinite, hzero, hrounds.le_of_le hyf hle⟩
  have hrest : Rounds (1 - real t) (1 - t) := by
    have hsub := rounds_sub (x := 1) rfl htf (by
      rw [real_one]
      exact hlimit (by linarith) (by linarith))
    rwa [real_one] at hsub
  have hrest0 := hrest.ge_of_ge (y := 0) rfl (by rw [real_zero]; linarith)
  have hrest1 := hrest.le_of_le (y := 1) rfl (by rw [real_one]; linarith)
  rw [real_zero] at hrest0
  rw [real_one] at hrest1
  obtain ⟨hpf, hp0, hp1⟩ := hproduct hcf htf hc0 hc1 ht0 ht1
  obtain ⟨hdf, hd0, hd1⟩ := hproduct hbf hrest.isFinite hb0 hb1 hrest0 hrest1
  have hsum := rounds_add hpf hdf (hlimit (by linarith) (by linarith))
  have hlower := hsum.ge_of_ge (y := 0) rfl (by rw [real_zero]; linarith)
  rw [real_zero] at hlower
  refine inUnit_iff.2 ⟨hsum.isFinite, hlower, hsum.le_one ?_⟩
  linarith [rest_lt ht0 ht1 hrest]

end Draftboard.Exact
