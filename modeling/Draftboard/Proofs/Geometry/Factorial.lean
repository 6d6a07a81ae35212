import Mathlib.Data.Nat.Choose.Basic
import Draftboard.Geometry.Curve

/-!
# Draftboard.Proofs.Geometry.Factorial

Factorials that are words of 64 bits, and the curves whose weights are computed from them.

* A factorial is the number's remainder modulo the size of a word (`toNat_factorial`). Up to 20 it is the
  number itself, and so are the binomials (`toNat_binomial`): these are the degrees of curves of up to 21
  points.
* The product `i! * (n - i)!` divides `n!`, and 65! is not a multiple of the size of a word while 66! is. So up
  to the degree 65 no divisor is zero (`divisor_ne_zero`), and from 66 on that of the first weight is
  (`divisor_eq_zero`). A curve of at most 66 points is computed to its end, and one of more points is broken
  off at its first weight (`Curve.checkedEvaluate_eq`).
-/

namespace Draftboard

/-! ### Factorials -/

theorem toNat_factorial (n : ℕ) : (factorial n).toNat = n.factorial % UInt64.size := by
  induction n with
  | zero => rfl
  | succ n ih =>
    rw [factorial, UInt64.toNat_mul, ih, UInt64.toNat_ofNat', Nat.factorial_succ]
    exact (Nat.mul_mod _ _ _).symm

theorem toNat_divisor (n i : ℕ) :
    (divisor n i).toNat = i.factorial * (n - i).factorial % UInt64.size := by
  rw [divisor, UInt64.toNat_mul, toNat_factorial, toNat_factorial]
  exact (Nat.mul_mod _ _ _).symm

theorem factorial_lt_size {n : ℕ} (h : n ≤ 20) : n.factorial < UInt64.size :=
  (Nat.factorial_le h).trans_lt (by decide)

/-- The factorials of curves of up to 21 points are not cut off. -/
theorem toNat_factorial_of_le {n : ℕ} (h : n ≤ 20) : (factorial n).toNat = n.factorial := by
  rw [toNat_factorial, Nat.mod_eq_of_lt (factorial_lt_size h)]

theorem toNat_divisor_of_le {n i : ℕ} (hn : n ≤ 20) (hi : i ≤ n) :
    (divisor n i).toNat = i.factorial * (n - i).factorial := by
  have hle := Nat.le_of_dvd n.factorial_pos (Nat.factorial_mul_factorial_dvd_factorial hi)
  rw [toNat_divisor, Nat.mod_eq_of_lt (hle.trans_lt (factorial_lt_size hn))]

/-- The weights of curves of up to 21 points have the binomials of whole numbers. -/
theorem toNat_binomial {n : ℕ} (hn : n ≤ 20) (i : ℕ) : (binomial n i).toNat = n.choose i := by
  rw [binomial]
  split
  · rename_i h
    rw [Nat.choose_eq_zero_of_lt h]
    rfl
  · rename_i h
    rw [UInt64.toNat_div, toNat_factorial_of_le hn, toNat_divisor_of_le hn (by omega),
      Nat.choose_eq_factorial_div_factorial (by omega)]

/-! ### Divisors -/

theorem divisor_eq_zero_iff (n i : ℕ) :
    divisor n i = 0 ↔ UInt64.size ∣ i.factorial * (n - i).factorial := by
  rw [← UInt64.toNat_inj, toNat_divisor, UInt64.toNat_zero, Nat.dvd_iff_mod_eq_zero]

/-- No divisor of a curve of up to 66 points is zero. -/
theorem divisor_ne_zero {n i : ℕ} (hn : n ≤ 65) (hi : i ≤ n) : divisor n i ≠ 0 := by
  intro h
  have hdvd := Nat.dvd_trans ((divisor_eq_zero_iff n i).1 h)
    (Nat.factorial_mul_factorial_dvd_factorial hi)
  exact absurd (Nat.dvd_trans hdvd (Nat.factorial_dvd_factorial hn)) (by decide)

/-- The first divisor of a curve of more points is zero. -/
theorem divisor_eq_zero {n : ℕ} (hn : 66 ≤ n) : divisor n 0 = 0 := by
  rw [divisor_eq_zero_iff, Nat.factorial_zero, Nat.one_mul, Nat.sub_zero]
  exact Nat.dvd_trans (by decide) (Nat.factorial_dvd_factorial hn)

theorem checkedBinomial_eq {n : ℕ} (hn : n ≤ 65) (i : ℕ) :
    checkedBinomial n i = .ok (binomial n i) := by
  rw [checkedBinomial, binomial]
  split
  · rfl
  · rename_i hi
    rw [if_neg (divisor_ne_zero hn (by omega))]

theorem checkedBinomial_zero {n : ℕ} (hn : 66 ≤ n) :
    checkedBinomial n 0 = .error .divisionByZero := by
  rw [checkedBinomial, if_neg (by omega), if_pos (divisor_eq_zero hn)]

/-! ### Curves -/

namespace Curve

variable {α : Type} [Scalar α]

theorem checkedWeightedSum_eq {n : ℕ} (hn : n ≤ 65) (t : α) (acc : Point α) (i : ℕ)
    (points : List (Point α)) :
    checkedWeightedSum n t acc i points = .ok (weightedSum n t acc i points) := by
  induction points generalizing acc i with
  | nil => rfl
  | cons p ps ih =>
    rw [checkedWeightedSum, checkedBinomial_eq hn]
    exact ih _ _

/-- A curve of more than 66 points is broken off, and any other one has its point. -/
theorem checkedEvaluate_eq (points : List (Point α)) (t : α) :
    checkedEvaluate points t =
      if points.length ≤ 66 then .ok (evaluate points t) else .error .divisionByZero := by
  split
  · exact checkedWeightedSum_eq (by omega) _ _ _ _
  · rename_i hlength
    cases points with
    | nil => simp at hlength
    | cons p ps =>
      rw [checkedEvaluate, checkedWeightedSum, checkedBinomial_zero (by omega)]

theorem checkedSample_eq (points : List (Point α)) (steps : ℕ) :
    checkedSample points steps =
      if points.length ≤ 66 then .ok (sample points steps) else .error .divisionByZero := by
  rw [checkedSample, sample]
  simp only [checkedEvaluate_eq]
  by_cases hlength : points.length ≤ 66
  · simp only [if_pos hlength]
    split
    · rfl
    · exact List.mapM_pure
  · simp only [if_neg hlength]
    split
    · rfl
    · rw [List.range_succ_eq_map, List.mapM_cons]
      rfl

end Curve

end Draftboard
