import Mathlib.Algebra.Order.Field.Power
import Mathlib.Data.Real.Basic
import Mathlib.Tactic.FieldSimp
import Mathlib.Tactic.GCongr
import Mathlib.Tactic.Linarith
import Mathlib.Tactic.NormNum
import Mathlib.Tactic.Positivity
import Mathlib.Tactic.Ring
import Draftboard.Proofs.Number.Binary

/-!
# Draftboard.Proofs.Number.Nearest

The 64-bit number nearest to a real.

* `HalfEven y n` says that `n` is `y` rounded to a whole number, a tie to the even neighbour. The
  decimals that are written and the mantissas of binary numbers are both rounded so.
* `real` is the real that a finite number stands for, and `Rounds q x` says that `x` is a number
  nearest to the real `q`. It comes with the two facts that the rest relies on: no number is nearer
  (`Rounds.near`), and how far off the nearest one can be (`Rounds.error`).
* A mantissa is cut off with a note on what was cut (`Located`). Shifting keeps the note true
  (`Located.shift`), so that the last step of every operation rounds the exact result
  (`rounds_roundWithAccuracy`).
-/

namespace Draftboard

open Float.Model (UnpackedFloat Format)
open Float.Model.UnpackedFloat

/-! ### Whole numbers -/

/-- `n` is the whole number nearest to `y`; of two equally near it is the even one. -/
structure HalfEven (y : ℝ) (n : ℕ) : Prop where
  near : |y - n| ≤ 1 / 2
  even : |y - n| = 1 / 2 → Even n

namespace HalfEven

variable {y z : ℝ} {n : ℕ}

/-- No whole number is nearer. -/
theorem le_abs_sub (h : HalfEven y n) (k : ℕ) : |(n : ℝ) - y| ≤ |(k : ℝ) - y| := by
  rcases eq_or_ne k n with rfl | hne
  · exact le_rfl
  · have hapart : (1 : ℝ) ≤ |(k : ℝ) - n| := by
      have hint : (k : ℤ) - n ≠ 0 := sub_ne_zero.2 (by exact_mod_cast hne)
      exact_mod_cast Int.one_le_abs hint
    have htriangle := abs_sub_le (k : ℝ) y n
    have hnear := h.near
    rw [abs_sub_comm] at hnear
    rw [abs_sub_comm y] at htriangle
    linarith

theorem unique {k : ℕ} (hn : HalfEven y n) (hk : HalfEven y k) : n = k := by
  by_contra hne
  have hapart : (1 : ℝ) ≤ |(n : ℝ) - k| := by
    have hint : (n : ℤ) - k ≠ 0 := sub_ne_zero.2 (by exact_mod_cast hne)
    exact_mod_cast Int.one_le_abs hint
  have htriangle := abs_sub_le (n : ℝ) y k
  rw [abs_sub_comm (n : ℝ) y] at htriangle
  have hn' := hn.near
  have hk' := hk.near
  -- Both are half a unit away, so both are even and at most one apart.
  obtain ⟨i, hi⟩ := hn.even (by linarith)
  obtain ⟨j, hj⟩ := hk.even (by linarith)
  have hone : |(n : ℤ) - k| ≤ 1 := by
    have : |(n : ℝ) - k| ≤ 1 := by linarith
    exact_mod_cast this
  rw [abs_le] at hone
  omega

/-- What is as near to the rounded value rounds to it as well. -/
theorem of_nearer (h : HalfEven y n) (hz : |z - n| ≤ |y - n|) : HalfEven z n :=
  ⟨hz.trans h.near, fun htie => h.even (le_antisymm h.near (htie ▸ hz))⟩

theorem of_lt (h : |y - n| < 1 / 2) : HalfEven y n :=
  ⟨h.le, fun htie => absurd htie h.ne⟩

theorem le_of_lt {k : ℕ} (h : HalfEven y n) (hy : y < k + 1 / 2) : n ≤ k := by
  have hnear := abs_le.1 h.near
  have hlt : (n : ℝ) < k + 1 := by linarith
  exact Nat.lt_succ_iff.1 (by exact_mod_cast hlt)

theorem ge_of_le {k : ℕ} (h : HalfEven y n) (hy : k ≤ y) : k ≤ n := by
  have hnear := abs_le.1 h.near
  have hlt : (k : ℝ) < n + 1 := by linarith
  exact Nat.lt_succ_iff.1 (by exact_mod_cast hlt)

end HalfEven

namespace Exact

/-! ### What is cut off -/

/-- `y` lies between `m` and `m + 1` as an accuracy says. -/
def Located (y : ℝ) (m : ℕ) : Accuracy → Prop
  | .exact => y = m
  | .inexact .lt => m < y ∧ y < m + 1 / 2
  | .inexact .eq => y = m + 1 / 2
  | .inexact .gt => m + 1 / 2 < y ∧ y < m + 1

namespace Located

variable {y : ℝ} {m : ℕ} {a : Accuracy}

theorem bounds (h : Located y m a) : m ≤ y ∧ y < m + 1 := by
  rcases a with _ | (_ | _ | _)
  · exact ⟨h.ge, by have : y = m := h; linarith⟩
  · exact ⟨h.1.le, by have := h.2; linarith⟩
  · have : y = m + 1 / 2 := h
    constructor <;> linarith
  · exact ⟨by have := h.1; linarith, h.2⟩

theorem halfEven (h : Located y m a) : HalfEven y (a.roundToNearestEven m) := by
  rcases a with _ | (_ | _ | _)
  · obtain rfl : y = m := h
    exact .of_lt (by simp [Accuracy.roundToNearestEven])
  · refine .of_lt ?_
    obtain ⟨h1, h2⟩ := h
    show |y - m| < 1 / 2
    rw [abs_of_pos (sub_pos.2 h1)]
    linarith
  · obtain rfl : y = m + 1 / 2 := h
    show HalfEven _ (m + m % 2)
    rcases Nat.even_or_odd m with hm | hm
    · rw [Nat.even_iff.1 hm, Nat.add_zero]
      exact ⟨by rw [add_sub_cancel_left]; norm_num, fun _ => hm⟩
    · rw [Nat.odd_iff.1 hm]
      refine ⟨?_, fun _ => hm.add_one⟩
      rw [Nat.cast_add, Nat.cast_one, abs_le]
      constructor <;> linarith
  · refine .of_lt ?_
    obtain ⟨h1, h2⟩ := h
    show |y - ((m + 1 : ℕ) : ℝ)| < 1 / 2
    rw [Nat.cast_add, Nat.cast_one, abs_lt]
    constructor <;> linarith

/-- Half of a located real is located by the mantissa with one bit less. -/
theorem shiftRightOne {em : ExtendedMantissa} (h : Located y em.mantissa em.accuracy) :
    Located (y / 2) em.shiftRightOne.mantissa em.shiftRightOne.accuracy := by
  obtain ⟨m, r, s⟩ := em
  have hcast : (m : ℝ) = 2 * (m / 2 : ℕ) + (m % 2 : ℕ) := by exact_mod_cast (Nat.div_add_mod m 2).symm
  -- The bit that leaves the mantissa is the new round bit, what was noted before becomes sticky.
  rcases Nat.mod_two_eq_zero_or_one m with hm | hm <;> rw [hm] at hcast <;>
    cases r <;> cases s <;>
    simp only [ExtendedMantissa.shiftRightOne, ExtendedMantissa.accuracy, Located, hm,
      bne_self_eq_false, Bool.or_false, Bool.or_true, show (1 != 0) = true from rfl] at h ⊢ <;>
    push_cast at hcast <;>
    first
      | linarith
      | (constructor <;> linarith)

/-- Shifting to another exponent keeps the location. -/
theorem shift {q : ℝ} {e : ℤ} (h : Located (q / 2 ^ e) m a) {t : ℤ} (he : e ≤ t) :
    ∃ em, shiftToExponent m e a t = (em, t) ∧ Located (q / 2 ^ t) em.mantissa em.accuracy := by
  have hrepeat : ∀ (n : ℕ) (em : ExtendedMantissa) (z : ℝ), Located z em.mantissa em.accuracy →
      Located (z / 2 ^ n) (n.repeat ExtendedMantissa.shiftRightOne em).mantissa
        (n.repeat ExtendedMantissa.shiftRightOne em).accuracy := by
    intro n em z hz
    induction n with
    | zero => simpa [Nat.repeat] using hz
    | succ n ih =>
      rw [pow_succ, ← div_div]
      exact ih.shiftRightOne
  have hstart : Located (q / 2 ^ e) (ExtendedMantissa.ofMantissaAndAccuracy m a).mantissa
      (ExtendedMantissa.ofMantissaAndAccuracy m a).accuracy := by
    rcases a with _ | (_ | _ | _) <;> exact h
  obtain ⟨k, rfl⟩ := Int.le.dest he
  refine ⟨_, Prod.ext rfl ?_, ?_⟩
  · show e + ((e + k - e).toNat : ℤ) = e + k
    omega
  · have hk : (e + k - e).toNat = k := by omega
    have hq : q / 2 ^ (e + k) = q / 2 ^ e / 2 ^ k := by
      rw [zpow_add₀ two_ne_zero, zpow_natCast, div_div]
    rw [shiftToExponent, hk, hq]
    exact hrepeat k _ _ hstart

end Located

/-! ### The reals that numbers stand for -/

/-- A magnitude with a sign. -/
def signed : Sign → ℝ → ℝ
  | .negative, q => -q
  | .positive, q => q

@[simp] theorem abs_signed (s : Sign) (q : ℝ) : |signed s q| = |q| := by
  cases s
  · exact abs_neg q
  · rfl

@[simp] theorem signed_zero (s : Sign) : signed s 0 = 0 := by
  cases s
  · exact neg_zero
  · rfl

theorem signed_sub (s : Sign) (q r : ℝ) : signed s q - signed s r = signed s (q - r) := by
  cases s
  · exact neg_sub_neg q r |>.trans (neg_sub q r).symm
  · rfl

theorem cast_apply (s : Sign) (m : ℕ) : ((s.apply m : ℤ) : ℝ) = signed s m := by
  cases s <;> simp [Sign.apply, signed]

/-- The real that the parts of a finite number stand for. -/
noncomputable def realOf : UnpackedFloat → ℝ
  | .finite s m e _ => signed s (m * 2 ^ e)
  | _ => 0

theorem realOf_finite (s : Sign) (m : ℕ) (e : ℤ) (h : 0 < m) :
    realOf (.finite s m e h) = signed s (m * 2 ^ e) := rfl

@[simp] theorem realOf_zero (s : Sign) : realOf (.zero s) = 0 := rfl

/-- The real that a finite number stands for. -/
noncomputable def real (x : Float) : ℝ := realOf (unpack x)

/-- A finite number is a zero or has a mantissa. -/
theorem cases_of_isFinite {x : Float} (h : x.isFinite = true) :
    (∃ s, unpack x = .zero s) ∨ ∃ s m e hm, unpack x = .finite s m e hm := by
  change (unpack x).isFinite = true at h
  cases hx : unpack x with
  | zero s => exact .inl ⟨s, rfl⟩
  | finite s m e hm => exact .inr ⟨s, m, e, hm, rfl⟩
  | _ => rw [hx] at h; cases h

theorem isFinite_of_unpack {x : Float} {u : UnpackedFloat} (h : unpack x = u) :
    x.isFinite = u.isFinite := by
  subst h
  rfl

/-- The sign of a number other than zero is that of what it stands for. -/
theorem isNegative_iff {x : Float} (h : real x ≠ 0) : isNegative x = true ↔ real x < 0 := by
  unfold real at h ⊢
  unfold isNegative
  cases hxu : unpack x with
  | finite s m e hm =>
    have hpos : (0 : ℝ) < m * 2 ^ e := by positivity
    rw [realOf_finite]
    cases s with
    | negative => exact iff_of_true rfl (neg_neg_of_pos hpos)
    | positive => exact iff_of_false Bool.false_ne_true (not_lt.2 hpos.le)
  | _ => rw [hxu] at h; exact absurd rfl h

theorem real_nonneg {x : Float} (h : isNegative x = false) : 0 ≤ real x := by
  by_contra hneg
  have hlt := not_le.1 hneg
  rw [(isNegative_iff hlt.ne).2 hlt] at h
  cases h

/-! ### Parts that packing keeps -/

theorem unpack_pack_zero (s : Sign) : unpack (pack (.zero s)) = .zero s := by
  cases s <;> rfl

theorem eq_pack_zero {x : Float} {s : Float.Model.UnpackedFloat.Sign} (h : unpack x = .zero s) :
    x = pack (.zero s) := by
  rw [← h, pack_unpack]

theorem unpack_packComponents {s : Sign} {e : BitVec 11} {m : BitVec 52} :
    let u := Float.Model.UnpackedFloat.unpack Format.binary64 (packComponents Format.binary64 s e m)
    (e = 0#11 → ∀ h, u = .finite s m.toNat (-1074) h) ∧
      (e.toNat ≠ 0 → e.toNat ≠ 2047 → ∀ h, u = .finite s (2 ^ 52 + m.toNat) (e.toNat - 1075) h) := by
  intro u
  have hcases := unpack_cases (packComponents Format.binary64 s e m)
  have hs : Sign.ofBitVec s.toBitVec = s := by cases s <;> rfl
  rw [unpackExponent_packComponents, unpackMantissa_packComponents, unpackSign_packComponents, hs]
    at hcases
  dsimp only at hcases
  constructor
  · rintro rfl h
    rcases hcases with ⟨he, -⟩ | ⟨he, -⟩ | ⟨-, hm, -⟩ | ⟨-, _, hu⟩ | ⟨he, -⟩
    · exact absurd he (by decide)
    · exact absurd he (by decide)
    · rw [hm] at h
      exact absurd h (by decide)
    · exact hu
    · exact absurd rfl he
  · intro h0 h1 h
    rcases hcases with ⟨he, -⟩ | ⟨he, -⟩ | ⟨he, -⟩ | ⟨he, -⟩ | ⟨-, -, _, hu⟩
    · exact absurd (congrArg BitVec.toNat he) h1
    · exact absurd (congrArg BitVec.toNat he) h1
    · exact absurd (congrArg BitVec.toNat he) h0
    · exact absurd (congrArg BitVec.toNat he) h0
    · exact hu

/-- The parts of a canonical number are read off its bits. -/
theorem unpack_pack {m : ℕ} {e : ℤ} (s : Sign) (h : Canonical m e) :
    unpack (pack (.finite s m e h.pos)) = .finite s m e h.pos := by
  have hu : unpack (pack (.finite s m e h.pos)) = Float.Model.UnpackedFloat.unpack Format.binary64
    (Float.Model.UnpackedFloat.pack Format.binary64 (.finite s m e h.pos)) := rfl
  obtain ⟨hpos, hlt, hlower, hupper, hfull⟩ := h
  rw [hu]
  by_cases hm : m < 2 ^ 52
  -- A short mantissa is stored whole.
  · obtain rfl : e = -1074 := hfull.resolve_left (by omega)
    obtain ⟨b, rfl⟩ : ∃ b : BitVec 52, m = b.toNat := ⟨BitVec.ofNat 52 m, by simp; omega⟩
    rw [pack_subnormal s b hpos]
    exact unpack_packComponents.1 rfl hpos
  -- Of a full one the first bit is left out.
  · obtain ⟨b, rfl⟩ : ∃ b : BitVec 52, m = 2 ^ 52 + b.toNat :=
      ⟨BitVec.ofNat 52 (m - 2 ^ 52), by simp; omega⟩
    obtain ⟨c, rfl⟩ : ∃ c : BitVec 11, e = c.toNat - 1075 :=
      ⟨BitVec.ofNat 11 (e + 1075).toNat, by simp; omega⟩
    rw [pack_normal s c b (by omega) hpos]
    exact unpack_packComponents.2 (by omega) (by omega) hpos

/-! ### The exponent of a rounded number -/

/-- A magnitude is rounded to multiples of `2 ^ t`: 53 bits are left of it, or there is no smaller
exponent. -/
structure Scale (q : ℝ) (t : ℤ) : Prop where
  lower : -1074 ≤ t
  lt : q < 2 ^ (t + 53)
  full : t = -1074 ∨ 2 ^ (t + 52) ≤ q

theorem targetExponent_eq (m : ℕ) (e : ℤ) :
    Format.binary64.targetExponent (Float.Model.totalExponent m e) =
      max (m.log2 + e - 52) (-1074) := by
  show max ((m.log2 : ℤ) + 1 + e - 53) (-1074) = _
  congr 1
  ring

/-- Where 53 bits can be left, a located magnitude is rounded at the exponent that is aimed at. -/
theorem Located.scale {q : ℝ} {m : ℕ} {e : ℤ} {a : Accuracy} (h : Located (q / 2 ^ e) m a)
    (he : e ≤ Format.binary64.targetExponent (Float.Model.totalExponent m e)) :
    Scale q (Format.binary64.targetExponent (Float.Model.totalExponent m e)) := by
  rw [targetExponent_eq] at he ⊢
  obtain ⟨hlow, hhigh⟩ := h.bounds
  rw [le_div_iff₀ (by positivity)] at hlow
  rw [div_lt_iff₀ (by positivity)] at hhigh
  refine ⟨le_max_right _ _, ?_, ?_⟩
  · have hm : (m : ℝ) + 1 ≤ 2 ^ (m.log2 + 1) := by exact_mod_cast Nat.lt_log2_self
    calc q < (m + 1) * 2 ^ e := hhigh
      _ ≤ 2 ^ (m.log2 + 1) * 2 ^ e := by gcongr
      _ = 2 ^ ((m.log2 : ℤ) + 1 + e) := by rw [zpow_add₀ two_ne_zero]; norm_cast
      _ ≤ 2 ^ (max ((m.log2 : ℤ) + e - 52) (-1074) + 53) :=
        zpow_le_zpow_right₀ one_le_two (by omega)
  · by_cases ht : (m.log2 : ℤ) + e - 52 ≤ -1074
    · exact .inl (max_eq_right ht)
    · right
      rw [max_eq_left (by omega)] at he ⊢
      have hne : m ≠ 0 := by
        rintro rfl
        simp at he
      have hm : (2 : ℝ) ^ m.log2 ≤ m := by exact_mod_cast Nat.log2_self_le hne
      calc (2 : ℝ) ^ ((m.log2 : ℤ) + e - 52 + 52) = 2 ^ m.log2 * 2 ^ e := by
            rw [sub_add_cancel, zpow_add₀ two_ne_zero, zpow_natCast]
        _ ≤ m * 2 ^ e := by gcongr
        _ ≤ q := hlow

/-! ### One rounding -/

/-- The parts of a rounded mantissa. One that has grown to 54 bits ends in a zero, which is cut
off. -/
def carried (s : Sign) (n : ℕ) (t : ℤ) : UnpackedFloat :=
  if h : n = 0 then .zero s
  else if n < 2 ^ 53 then .finite s n t (Nat.pos_of_ne_zero h)
  else .finite s (2 ^ 52) (t + 1) (by decide)

theorem carried_cases (s : Sign) {n : ℕ} (hn : n ≤ 2 ^ 53) (t : ℤ) :
    (n = 0 ∧ carried s n t = .zero s) ∨
      (∃ h : 0 < n, n < 2 ^ 53 ∧ carried s n t = .finite s n t h) ∨
      n = 2 ^ 53 ∧ carried s n t = .finite s (2 ^ 52) (t + 1) (by decide) := by
  unfold carried
  by_cases h0 : n = 0
  · exact .inl ⟨h0, dif_pos h0⟩
  · rw [dif_neg h0]
    by_cases hlt : n < 2 ^ 53
    · rw [if_pos hlt]
      exact .inr (.inl ⟨Nat.pos_of_ne_zero h0, hlt, rfl⟩)
    · rw [if_neg hlt]
      exact .inr (.inr ⟨by omega, rfl⟩)

theorem realOf_carried (s : Sign) {n : ℕ} (hn : n ≤ 2 ^ 53) (t : ℤ) :
    realOf (carried s n t) = signed s (n * 2 ^ t) := by
  rcases carried_cases s hn t with ⟨rfl, hc⟩ | ⟨_, -, hc⟩ | ⟨rfl, hc⟩ <;> rw [hc]
  · rw [realOf_zero, Nat.cast_zero, zero_mul, signed_zero]
  · rfl
  · rw [realOf_finite, zpow_add₀ two_ne_zero]
    congr 1
    push_cast
    ring

theorem roundWithAccuracy_eq {s : Sign} {m : ℕ} {e t : ℤ} {a : Accuracy} {em : ExtendedMantissa}
    (hshift : shiftToTargetExponent Format.binary64 m e a = (em, t)) (ht : -1074 ≤ t)
    (hn : em.roundedMantissa ≤ 2 ^ 53) :
    roundWithAccuracy Format.binary64 s m e a = carried s em.roundedMantissa t := by
  unfold roundWithAccuracy carried
  rw [hshift]
  dsimp only
  generalize em.roundedMantissa = n at hn
  by_cases hlt : n < 2 ^ 53
  · have hlog : n.log2 ≤ 52 := by
      rcases Nat.eq_zero_or_pos n with rfl | hpos
      · decide
      · have := (Nat.log2_lt hpos.ne').2 hlt
        omega
    have hk : (Format.binary64.targetExponent (Float.Model.totalExponent n t) - t).toNat = 0 := by
      rw [targetExponent_eq]
      omega
    have hnone := shiftToExponent_exact (m := n) hk
    rw [pow_zero, Nat.mul_one, Nat.cast_zero, add_zero] at hnone
    rw [shiftToTargetExponent, hnone]
    dsimp only
    by_cases h0 : n = 0
    · rw [dif_pos h0, dif_pos h0]
    · rw [dif_neg h0, dif_neg h0, if_pos hlt]
  · obtain rfl : n = 2 ^ 53 := by omega
    have hk : (Format.binary64.targetExponent (Float.Model.totalExponent (2 ^ 53) t) - t).toNat = 1 := by
      rw [targetExponent_eq, Nat.log2_two_pow]
      omega
    have hone := shiftToExponent_exact (m := 2 ^ 52) hk
    rw [show 2 ^ 52 * 2 ^ 1 = 2 ^ 53 by norm_num] at hone
    rw [shiftToTargetExponent, hone]
    rfl

/-- From here on a magnitude has no finite number nearest to it. -/
noncomputable def overflow : ℝ := (2 ^ 54 - 1) * 2 ^ (970 : ℤ)

theorem lt_overflow {q : ℝ} (hq : q ≤ 2 ^ 100) : q < overflow := by
  have hpow : (2 : ℝ) ^ (100 : ℤ) ≤ 2 ^ (970 : ℤ) := zpow_le_zpow_right₀ one_le_two (by norm_num)
  have hpos : (0 : ℝ) < 2 ^ (970 : ℤ) := by positivity
  unfold overflow
  generalize (2 : ℝ) ^ (970 : ℤ) = z at hpow hpos
  norm_cast at hpow
  norm_num at hpow hq ⊢
  linarith

theorem overflow_lt : overflow < 2 ^ (1024 : ℤ) := by
  rw [overflow, show (1024 : ℤ) = 54 + 970 by norm_num, zpow_add₀ two_ne_zero]
  gcongr
  norm_num

/-- Finite numbers keep a distance from the overflow. -/
theorem abs_real_add_one_lt {x : Float} (hx : x.isFinite = true) : |real x| + 1 < overflow := by
  have hone : (2 : ℝ) ^ (0 : ℤ) < 2 ^ (970 : ℤ) := zpow_lt_zpow_right₀ one_lt_two (by norm_num)
  rw [zpow_zero] at hone
  rcases cases_of_isFinite hx with ⟨s, hxu⟩ | ⟨s, m, e, hm, hxu⟩ <;> rw [real, hxu, overflow]
  · rw [realOf_zero, abs_zero]
    generalize (2 : ℝ) ^ (970 : ℤ) = z at hone
    linarith
  · have hcanonical := canonical_of_unpack hxu
    have hm53 : (m : ℝ) + 1 ≤ 2 ^ 53 := by exact_mod_cast hcanonical.lt
    have he : (2 : ℝ) ^ e ≤ 2 * 2 ^ (970 : ℤ) := by
      rw [mul_comm, ← zpow_add_one₀ two_ne_zero]
      exact zpow_le_zpow_right₀ one_le_two hcanonical.upper
    rw [realOf_finite, abs_signed, abs_of_nonneg (by positivity)]
    generalize (2 : ℝ) ^ (970 : ℤ) = z at hone he
    have hprod : (m : ℝ) * 2 ^ e ≤ (2 ^ 53 - 1) * (2 * z) := by
      gcongr
      linarith
    linarith

/-- `x` is a finite number nearest to `q`. -/
structure Rounds (q : ℝ) (x : Float) : Prop where
  isFinite : x.isFinite = true
  near : ∀ y : Float, y.isFinite = true → |real x - q| ≤ |real y - q|
  error : |real x - q| ≤ |q| / 2 ^ 53 + 2 ^ (-1075 : ℤ)

/-- A number is nearest to what it stands for. -/
theorem Rounds.of_isFinite {x : Float} (h : x.isFinite = true) : Rounds (real x) x := by
  refine ⟨h, fun y _ => ?_, ?_⟩ <;> rw [sub_self, abs_zero] <;> positivity

theorem Rounds.of_real_eq {q : ℝ} {x : Float} (h : x.isFinite = true) (hq : real x = q) :
    Rounds q x := hq ▸ .of_isFinite h

/-- A number that rounds what another stands for stands for the same. -/
theorem Rounds.real_eq {x y : Float} (h : Rounds (real y) x) (hy : y.isFinite = true) :
    real x = real y := by
  have hnear := h.near y hy
  rw [sub_self, abs_zero] at hnear
  exact sub_eq_zero.1 (abs_nonpos_iff.1 hnear)

namespace Scale

variable {q : ℝ} {t : ℤ} {n : ℕ}

theorem mantissa_le (h : Scale q t) (hn : HalfEven (q / 2 ^ t) n) : n ≤ 2 ^ 53 := by
  refine hn.le_of_lt ?_
  have hlt : q / 2 ^ t < 2 ^ 53 := by
    rw [div_lt_iff₀ (by positivity)]
    calc q < 2 ^ (t + 53) := h.lt
      _ = 2 ^ 53 * 2 ^ t := by rw [zpow_add₀ two_ne_zero, mul_comm]; norm_cast
  push_cast
  linarith

theorem full_mantissa (h : Scale q t) (hn : HalfEven (q / 2 ^ t) n) : t = -1074 ∨ 2 ^ 52 ≤ n := by
  refine h.full.imp id fun hfull => hn.ge_of_le ?_
  rw [le_div_iff₀ (by positivity)]
  calc ((2 ^ 52 : ℕ) : ℝ) * 2 ^ t = 2 ^ (t + 52) := by
        rw [zpow_add₀ two_ne_zero, mul_comm]
        norm_cast
    _ ≤ q := hfull

/-- Below the overflow the exponent is in range, also after a carry. -/
theorem le_of_lt_overflow (h : Scale q t) (hn : HalfEven (q / 2 ^ t) n) (hq : q < overflow) :
    t ≤ 970 ∨ t = 971 ∧ n < 2 ^ 53 := by
  rcases h.full with rfl | hfull
  · exact .inl (by norm_num)
  · have hlt : (2 : ℝ) ^ (t + 52) < 2 ^ (1024 : ℤ) := (hfull.trans_lt hq).trans overflow_lt
    rw [zpow_lt_zpow_iff_right₀ one_lt_two] at hlt
    rcases le_or_gt t 970 with ht | ht
    · exact .inl ht
    · obtain rfl : t = 971 := by omega
      refine .inr ⟨rfl, Nat.lt_of_le_pred (by norm_num) (hn.le_of_lt ?_)⟩
      rw [div_lt_iff₀ (by positivity)]
      calc q < (2 ^ 54 - 1) * 2 ^ (970 : ℤ) := hq
        _ = ((2 ^ 53 : ℕ).pred + 1 / 2) * 2 ^ (971 : ℤ) := by
          rw [show (971 : ℤ) = 970 + 1 by norm_num, zpow_add₀ two_ne_zero]
          generalize (2 : ℝ) ^ (970 : ℤ) = z
          norm_num
          ring

/-- Half a unit is a small part of the magnitude, or half of the smallest unit. -/
theorem half_unit_le (h : Scale q t) (hq : 0 ≤ q) : 2 ^ t / 2 ≤ q / 2 ^ 53 + 2 ^ (-1075 : ℤ) := by
  rcases h.full with rfl | hfull
  · have hunit : (2 : ℝ) ^ (-1074 : ℤ) / 2 = 2 ^ (-1075 : ℤ) := by
      rw [show (-1074 : ℤ) = -1075 + 1 by norm_num, zpow_add_one₀ two_ne_zero, mul_div_assoc,
        div_self two_ne_zero, MulOneClass.mul_one]
    rw [hunit]
    exact le_add_of_nonneg_left (by positivity)
  · have hunit : (2 : ℝ) ^ t / 2 = 2 ^ (t + 52) / 2 ^ 53 := by
      rw [zpow_add₀ two_ne_zero, show (2 : ℝ) ^ 53 = 2 ^ (52 : ℤ) * 2 by norm_num]
      field_simp
    calc (2 : ℝ) ^ t / 2 = 2 ^ (t + 52) / 2 ^ 53 := hunit
      _ ≤ q / 2 ^ 53 := by gcongr
      _ ≤ q / 2 ^ 53 + 2 ^ (-1075 : ℤ) := le_add_of_nonneg_right (by positivity)

/-- No finite number is nearer than the rounded mantissa. -/
theorem near (h : Scale q t) (hn : HalfEven (q / 2 ^ t) n) {y : Float} (hy : y.isFinite = true) :
    |n * 2 ^ t - q| ≤ |(|real y|) - q| := by
  have hpos : (0 : ℝ) < 2 ^ t := by positivity
  have hgrid : ∀ k : ℕ, |n * 2 ^ t - q| ≤ |k * 2 ^ t - q| := by
    intro k
    have hscale : ∀ r : ℝ, r * 2 ^ t - q = (r - q / 2 ^ t) * 2 ^ t := by
      intro r
      rw [sub_mul, div_mul_cancel₀ q hpos.ne']
    rw [hscale, hscale, abs_mul, abs_mul]
    exact mul_le_mul_of_nonneg_right (hn.le_abs_sub k) (abs_nonneg _)
  rcases cases_of_isFinite hy with ⟨s, hzero⟩ | ⟨s, m, e, hm, hfinite⟩
  · simpa [real, hzero] using hgrid 0
  · have hcanonical := canonical_of_unpack hfinite
    have habs : |real y| = m * 2 ^ e := by
      rw [real, hfinite, realOf_finite, abs_signed, abs_of_nonneg (by positivity)]
    rw [habs]
    rcases le_or_gt t e with hte | hte
    -- A number with a unit as large is a multiple of the unit.
    · obtain ⟨k, rfl⟩ := Int.le.dest hte
      have hmul : (m : ℝ) * 2 ^ (t + k) = (m * 2 ^ k : ℕ) * 2 ^ t := by
        rw [zpow_add₀ two_ne_zero, zpow_natCast]
        push_cast
        ring
      rw [hmul]
      exact hgrid _
    -- One with a smaller unit lies below the smallest full mantissa.
    · have hfull : (2 : ℝ) ^ (t + 52) ≤ q := h.full.resolve_left (by have := hcanonical.lower; omega)
      have hm53 : (m : ℝ) ≤ 2 ^ 53 := by exact_mod_cast hcanonical.lt.le
      have hsmall : (m : ℝ) * 2 ^ e ≤ 2 ^ (t + 52) := by
        calc (m : ℝ) * 2 ^ e ≤ 2 ^ 53 * 2 ^ (t - 1) := by
              gcongr
              · norm_num
              · omega
          _ = 2 ^ (t + 52) := by
            rw [show t + 52 = 53 + (t - 1) by ring, zpow_add₀ two_ne_zero]
            norm_cast
      have hfirst : ((2 ^ 52 : ℕ) : ℝ) * 2 ^ t = 2 ^ (t + 52) := by
        rw [zpow_add₀ two_ne_zero, mul_comm]
        norm_cast
      calc |n * 2 ^ t - q| ≤ |((2 ^ 52 : ℕ) : ℝ) * 2 ^ t - q| := hgrid _
        _ = q - 2 ^ (t + 52) := by
          rw [hfirst, abs_sub_comm, abs_of_nonneg (sub_nonneg.2 hfull)]
        _ ≤ q - m * 2 ^ e := by linarith
        _ = |m * 2 ^ e - q| := by
          rw [abs_sub_comm, abs_of_nonneg (sub_nonneg.2 (hsmall.trans hfull))]

/-- The rounded mantissa makes a number nearest to the magnitude. -/
theorem rounds (h : Scale q t) (hn : HalfEven (q / 2 ^ t) n) (s : Sign) (hq : 0 ≤ q)
    (hlimit : q < overflow) : Rounds (signed s q) (pack (carried s n t)) := by
  have hunpack : unpack (pack (carried s n t)) = carried s n t := by
    have hrange := h.le_of_lt_overflow hn hlimit
    have hfull := h.full_mantissa hn
    have hlower := h.lower
    rcases carried_cases s (h.mantissa_le hn) t with ⟨-, hc⟩ | ⟨hpos, hlt, hc⟩ | ⟨rfl, hc⟩ <;> rw [hc]
    · exact unpack_pack_zero s
    · exact unpack_pack s ⟨hpos, hlt, hlower, by omega, by omega⟩
    · exact unpack_pack s ⟨by decide, by decide, by omega, by omega, .inl le_rfl⟩
  have hreal : real (pack (carried s n t)) = signed s (n * 2 ^ t) := by
    rw [real, hunpack, realOf_carried s (h.mantissa_le hn)]
  refine ⟨?_, fun y hy => ?_, ?_⟩
  · rw [isFinite_of_unpack hunpack]
    rcases carried_cases s (h.mantissa_le hn) t with ⟨-, hc⟩ | ⟨_, -, hc⟩ | ⟨-, hc⟩ <;> rw [hc] <;> rfl
  · rw [hreal, signed_sub, abs_signed]
    calc |n * 2 ^ t - q| ≤ |(|real y|) - q| := h.near hn hy
      _ = abs (|real y| - |signed s q|) := by rw [abs_signed, abs_of_nonneg hq]
      _ ≤ |real y - signed s q| := abs_abs_sub_abs_le _ _
  · rw [hreal, signed_sub, abs_signed, abs_signed, abs_of_nonneg hq]
    have hpos : (0 : ℝ) < 2 ^ t := by positivity
    have hscale : n * 2 ^ t - q = -((q / 2 ^ t - n) * 2 ^ t) := by
      rw [sub_mul, div_mul_cancel₀ q hpos.ne', neg_sub]
    calc |n * 2 ^ t - q| = |q / 2 ^ t - n| * 2 ^ t := by
          rw [hscale, abs_neg, abs_mul, abs_of_pos hpos]
      _ ≤ 1 / 2 * 2 ^ t := by gcongr; exact hn.near
      _ = 2 ^ t / 2 := by ring
      _ ≤ q / 2 ^ 53 + 2 ^ (-1075 : ℤ) := h.half_unit_le hq

end Scale

/-- Rounding with what was cut off gives a number nearest to the exact magnitude. -/
theorem rounds_roundWithAccuracy (s : Sign) {q : ℝ} {m : ℕ} {e : ℤ} {a : Accuracy}
    (h : Located (q / 2 ^ e) m a)
    (he : e ≤ Format.binary64.targetExponent (Float.Model.totalExponent m e)) (hq : q < overflow) :
    Rounds (signed s q) (pack (roundWithAccuracy Format.binary64 s m e a)) := by
  have hscale := h.scale he
  obtain ⟨em, hshift, hloc⟩ := h.shift he
  have hn : HalfEven _ em.roundedMantissa := hloc.halfEven
  have hnonneg : 0 ≤ q := by
    have hlow := (Nat.cast_nonneg m).trans h.bounds.1
    rwa [le_div_iff₀ (by positivity), zero_mul] at hlow
  rw [roundWithAccuracy_eq hshift hscale.lower (hscale.mantissa_le hn)]
  exact hscale.rounds hn s hnonneg hq

end Exact

end Draftboard
