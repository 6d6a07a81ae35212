import Mathlib.Algebra.BigOperators.Ring.Finset
import Mathlib.Data.List.GetD
import Draftboard.Proofs.Geometry.Factorial
import Draftboard.Proofs.Geometry.Plane
import Draftboard.Proofs.Number.Rational

/-!
# Draftboard.Proofs.Geometry.Casteljau

The weighted sum of a curve is the point of repeated interpolation, with coordinates that are not rounded.

* A rung has the points that divide the ways between neighbours in the ratio of the parameter. Rung
  by rung one point is left (`casteljau`).
* The weights of Bernstein of a degree come from those of the degree below it (`bernstein_succ_succ`,
  Pascal's rule), so a rung gives the same weighted sum as the points that it is made of (`blend_succ`,
  `blended_rung`).
* A curve of at most 21 points has these weights, since no factorial of them is cut off (`weight_eq`), and is
  that sum (`evaluate_eq_blended`).
* At the ends of the parameter the rungs keep the first and the last of the points, and so does the
  sampled curve.
-/

namespace Draftboard.Curve

open Finset (range sum_range_succ sum_range_succ')

/-! ### Repeated interpolation -/

/-- The points that divide the ways between neighbours. -/
def rung (t : ℚ) (points : List (Point ℚ)) : List (Point ℚ) :=
  points.zipWith (fun p q => Plane.lerp p q t) points.tail

theorem length_rung (t : ℚ) (points : List (Point ℚ)) :
    (rung t points).length = points.length - 1 := by
  simp [rung]

theorem getD_rung (t : ℚ) {points : List (Point ℚ)} {i : ℕ} (h : i + 1 < points.length)
    (p : Point ℚ) :
    (rung t points).getD i p = Plane.lerp (points.getD i p) (points.getD (i + 1) p) t := by
  have hi : i < (rung t points).length := by rw [length_rung]; omega
  rw [List.getD_eq_getElem _ _ hi, List.getD_eq_getElem _ _ (Nat.lt_of_succ_lt h),
    List.getD_eq_getElem _ _ h]
  simp [rung]

/-- The point that is left of the points when they have been interpolated rung by rung. -/
def casteljau (t : ℚ) : List (Point ℚ) → Point ℚ
  | [] => ⟨0, 0⟩
  | [p] => p
  | p :: q :: rest => casteljau t (rung t (p :: q :: rest))
termination_by points => points.length
decreasing_by simp [length_rung]

theorem rung_zero (points : List (Point ℚ)) : rung 0 points = points.dropLast := by
  apply List.ext_getElem <;> simp [rung]

theorem rung_one (points : List (Point ℚ)) : rung 1 points = points.tail := by
  apply List.ext_getElem <;> simp [rung]

theorem casteljau_zero (p : Point ℚ) (rest : List (Point ℚ)) : casteljau 0 (p :: rest) = p := by
  induction hn : rest.length generalizing rest with
  | zero =>
    obtain rfl := List.length_eq_zero_iff.1 hn
    rw [casteljau]
  | succ n ih =>
    obtain ⟨q, rest, rfl⟩ := List.exists_cons_of_length_eq_add_one hn
    rw [casteljau, rung_zero, List.dropLast_cons_cons]
    exact ih _ (by simpa using hn)

theorem casteljau_one (rest : List (Point ℚ)) (p : Point ℚ) :
    casteljau 1 (rest ++ [p]) = p := by
  induction rest with
  | nil => rw [List.nil_append, casteljau]
  | cons q rest ih =>
    have hstep : casteljau 1 (q :: (rest ++ [p])) = casteljau 1 (rest ++ [p]) := by
      cases hrest : rest ++ [p] with
      | nil => simp at hrest
      | cons r more => rw [casteljau, rung_one, List.tail_cons]
    rw [List.cons_append, hstep, ih]

/-! ### Weights -/

/-- The weight of point `i` in degree `n`, with the binomials of whole numbers. -/
def bernstein (n i : ℕ) (t : ℚ) : ℚ := n.choose i * (1 - t) ^ (n - i) * t ^ i

/-- Pascal's rule. -/
theorem bernstein_succ_succ {n i : ℕ} (h : i ≤ n) (t : ℚ) :
    bernstein (n + 1) (i + 1) t = t * bernstein n i t + (1 - t) * bernstein n (i + 1) t := by
  rw [bernstein, bernstein, bernstein, Nat.choose_succ_succ, Nat.add_sub_add_right]
  rcases Nat.lt_or_eq_of_le h with h | rfl
  · rw [show n - i = n - (i + 1) + 1 by omega]
    push_cast
    ring
  · rw [Nat.choose_succ_self]
    push_cast
    ring

theorem bernstein_succ_zero (n : ℕ) (t : ℚ) : bernstein (n + 1) 0 t = (1 - t) * bernstein n 0 t := by
  simp only [bernstein, Nat.choose_zero_right, Nat.sub_zero]
  ring

/-- The sum of a sequence of numbers with the weights of a degree. -/
def blend (n : ℕ) (t : ℚ) (u : ℕ → ℚ) : ℚ := ∑ i ∈ range (n + 1), bernstein n i t * u i

/-- A degree higher, the sum is that of the interpolated sequence. -/
theorem blend_succ (n : ℕ) (t : ℚ) (u : ℕ → ℚ) :
    blend (n + 1) t u = blend n t fun i => (1 - t) * u i + t * u (i + 1) := by
  have hlast : bernstein n (n + 1) t = 0 := by simp [bernstein]
  have hlower : ∑ i ∈ range (n + 1), bernstein n (i + 1) t * u (i + 1) + bernstein n 0 t * u 0 =
      ∑ i ∈ range (n + 1), bernstein n i t * u i := by
    rw [← sum_range_succ' fun i => bernstein n i t * u i, sum_range_succ, hlast, zero_mul, add_zero]
  calc blend (n + 1) t u
      = ∑ i ∈ range (n + 1), bernstein (n + 1) (i + 1) t * u (i + 1) + bernstein (n + 1) 0 t * u 0 :=
        sum_range_succ' _ _
    _ = t * (∑ i ∈ range (n + 1), bernstein n i t * u (i + 1)) +
          (1 - t) *
            (∑ i ∈ range (n + 1), bernstein n (i + 1) t * u (i + 1) + bernstein n 0 t * u 0) := by
        rw [mul_add, Finset.mul_sum, Finset.mul_sum, ← add_assoc, ← Finset.sum_add_distrib,
          bernstein_succ_zero, mul_assoc]
        congr 1
        refine Finset.sum_congr rfl fun i hi => ?_
        rw [bernstein_succ_succ (Finset.mem_range_succ_iff.1 hi)]
        ring
    _ = blend n t fun i => (1 - t) * u i + t * u (i + 1) := by
        rw [hlower, Finset.mul_sum, Finset.mul_sum, ← Finset.sum_add_distrib]
        refine Finset.sum_congr rfl fun i _ => ?_
        ring

section Exact

variable [Scalar.Functions ℚ]

/-- Curves of at most 21 points have the weights of Bernstein. -/
theorem weight_eq {n : ℕ} (hn : n ≤ 20) (i : ℕ) (t : ℚ) : weight n i t = bernstein n i t := by
  rw [weight, weightOf, toNat_binomial hn, Scalar.power_rat, Scalar.power_rat, Scalar.one_rat]
  rfl

/-! ### The weighted sum -/

/-- One of the two coordinates, as far as sums and interpolation go. -/
structure Coordinate (f : Point ℚ → ℚ) : Prop where
  origin : f Point.origin = 0
  add : ∀ p q, f (p + q) = f p + f q
  scale : ∀ p k, f (p.scale k) = f p * k
  lerp : ∀ p q t, f (Plane.lerp p q t) = (1 - t) * f p + t * f q

theorem coordinate_x : Coordinate Point.x where
  origin := Point.x_origin_rat
  add := Point.x_add_rat
  scale := Point.x_scale_rat
  lerp p q t := by
    rw [Plane.lerp]
    ring

theorem coordinate_y : Coordinate Point.y where
  origin := Point.y_origin_rat
  add := Point.y_add_rat
  scale := Point.y_scale_rat
  lerp p q t := by
    rw [Plane.lerp]
    ring

/-- The sum of points with the weights of Bernstein. -/
def blended (t : ℚ) (points : List (Point ℚ)) : Point ℚ :=
  ⟨blend (points.length - 1) t fun i => (points.getD i Point.origin).x,
    blend (points.length - 1) t fun i => (points.getD i Point.origin).y⟩

namespace Coordinate

variable {f : Point ℚ → ℚ}

theorem weightedSum (hf : Coordinate f) (n : ℕ) (t : ℚ) (acc : Point ℚ) (i : ℕ)
    (points : List (Point ℚ)) : f (weightedSum n t acc i points) =
      f acc + ∑ j ∈ range points.length, weight n (i + j) t * f (points.getD j Point.origin) := by
  induction points generalizing acc i with
  | nil => simp [Curve.weightedSum]
  | cons p ps ih =>
    rw [Curve.weightedSum, ih, hf.add, hf.scale, List.length_cons, sum_range_succ', add_assoc]
    congr 1
    rw [add_comm, mul_comm]
    congr 1
    refine Finset.sum_congr rfl fun j _ => ?_
    rw [List.getD_cons_succ, Nat.add_right_comm, Nat.add_assoc]

theorem evaluate (hf : Coordinate f) {points : List (Point ℚ)} (h : points ≠ [])
    (hlength : points.length ≤ 21) (t : ℚ) :
    f (evaluate points t) =
      blend (points.length - 1) t fun i => f (points.getD i Point.origin) := by
  have hpos := List.length_pos_iff.2 h
  rw [Curve.evaluate, hf.weightedSum, hf.origin, zero_add, blend, Nat.sub_add_cancel hpos]
  refine Finset.sum_congr rfl fun i _ => ?_
  rw [Nat.zero_add, weight_eq (by omega)]

/-- In each coordinate a rung gives the same sum. -/
theorem blend_rung (hf : Coordinate f) (p q : Point ℚ) (rest : List (Point ℚ)) (t : ℚ) :
    blend rest.length t (fun i => f ((rung t (p :: q :: rest)).getD i Point.origin)) =
      blend (rest.length + 1) t fun i => f ((p :: q :: rest).getD i Point.origin) := by
  rw [blend_succ, blend, blend]
  refine Finset.sum_congr rfl fun i hi => ?_
  have hi : i + 1 < (p :: q :: rest).length := by simpa using Finset.mem_range.1 hi
  rw [← hf.lerp, getD_rung t hi]

end Coordinate

/-- A rung keeps the sum. -/
theorem blended_rung (p q : Point ℚ) (rest : List (Point ℚ)) (t : ℚ) :
    blended t (rung t (p :: q :: rest)) = blended t (p :: q :: rest) := by
  have hlength : (rung t (p :: q :: rest)).length - 1 = rest.length := by simp [length_rung]
  rw [blended, hlength, coordinate_x.blend_rung, coordinate_y.blend_rung]
  rfl

theorem blended_singleton (p : Point ℚ) (t : ℚ) : blended t [p] = p := by
  simp [blended, blend, bernstein]

/-- The sum is the point that is left when the points are interpolated rung by rung. -/
theorem blended_eq {points : List (Point ℚ)} (h : points ≠ []) (t : ℚ) :
    blended t points = casteljau t points := by
  fun_induction casteljau t points with
  | case1 => exact absurd rfl h
  | case2 p => exact blended_singleton p t
  | case3 p q rest ih => rw [← blended_rung, ih (by simp [rung])]

theorem evaluate_eq_blended {points : List (Point ℚ)} (h : points ≠ []) (hlength : points.length ≤ 21)
    (t : ℚ) : evaluate points t = blended t points :=
  Point.ext (coordinate_x.evaluate h hlength t) (coordinate_y.evaluate h hlength t)

/-- A curve of at most 21 points has the point of repeated interpolation. -/
theorem evaluate_eq {points : List (Point ℚ)} (h : points ≠ []) (hlength : points.length ≤ 21) (t : ℚ) :
    evaluate points t = casteljau t points := by
  rw [evaluate_eq_blended h hlength, blended_eq h]

/-! ### The ends of a curve -/

theorem head?_sample {points : List (Point ℚ)} (h : points ≠ []) (hlength : points.length ≤ 21)
    {steps : ℕ} (hsteps : 1 ≤ steps) : (sample points steps).head? = points.head? := by
  obtain ⟨p, rest, rfl⟩ := List.exists_cons_of_ne_nil h
  rw [sample, if_neg (by omega), List.range_succ_eq_map, List.map_cons, Scalar.ratio_rat,
    Nat.cast_zero, zero_div, evaluate_eq h hlength, casteljau_zero]
  rfl

theorem getLast?_sample {points : List (Point ℚ)} (h : points ≠ []) (hlength : points.length ≤ 21)
    {steps : ℕ} (hsteps : 1 ≤ steps) : (sample points steps).getLast? = points.getLast? := by
  obtain ⟨rest, p, rfl⟩ := List.eq_nil_or_concat' points |>.resolve_left h
  have hne : (steps : ℚ) ≠ 0 := Nat.cast_ne_zero.2 (by omega)
  rw [sample, if_neg (by omega), List.range_succ, List.map_append, List.map_singleton,
    List.getLast?_concat, List.getLast?_concat, Scalar.ratio_rat, div_self hne,
    evaluate_eq h hlength, casteljau_one]

/-- The sum with the weights of Bernstein is the point of repeated interpolation, however many points there
are. A curve of up to 21 points is computed to that sum, and sampled it starts at its first point and stops at
its last one: no factorial of it is cut off, and no divisor is zero. -/
theorem evaluate_and_sample {points : List (Point ℚ)} (h : points ≠ []) :
    (∀ t, blended t points = casteljau t points) ∧
    (∀ steps, (sample points steps).length = steps + 1) ∧
    (points.length ≤ 21 →
      (∀ t, checkedEvaluate points t = .ok (evaluate points t) ∧
        evaluate points t = casteljau t points) ∧
      (∀ steps, checkedSample points steps = .ok (sample points steps)) ∧
      (∀ steps, 1 ≤ steps → (sample points steps).head? = points.head? ∧
        (sample points steps).getLast? = points.getLast?) ∧
      ∀ i < points.length,
        (factorial (points.length - 1)).toNat = (points.length - 1).factorial ∧
        (divisor (points.length - 1) i).toNat = i.factorial * (points.length - 1 - i).factorial) := by
  refine ⟨blended_eq h, length_sample points, fun hlength => ⟨fun t => ⟨?_, evaluate_eq h hlength t⟩,
    fun steps => ?_, fun steps hsteps => ?_, fun i hi => ?_⟩⟩
  · rw [checkedEvaluate_eq, if_pos (by omega)]
  · rw [checkedSample_eq, if_pos (by omega)]
  · exact ⟨head?_sample h hlength hsteps, getLast?_sample h hlength hsteps⟩
  · exact ⟨toNat_factorial_of_le (by omega), toNat_divisor_of_le (by omega) (by omega)⟩

end Exact

theorem evaluate_and_sample_cubic : letI : Scalar.Functions ℚ := default
    let cubic : List (Point ℚ) := [⟨0, 0⟩, ⟨0, 3⟩, ⟨6, 3⟩, ⟨9, -3⟩]
    cubic ≠ [] ∧ evaluate cubic (1 / 3) = ⟨5 / 3, 17 / 9⟩ ∧
      checkedEvaluate cubic (1 / 3) = .ok ⟨5 / 3, 17 / 9⟩ ∧
      (sample cubic 4).head? = some ⟨0, 0⟩ ∧ (sample cubic 4).getLast? = some ⟨9, -3⟩ ∧
      (factorial 3).toNat = Nat.factorial 3 ∧
      (divisor 3 2).toNat = Nat.factorial 2 * Nat.factorial 1 := by
  let _ : Scalar.Functions ℚ := default
  intro cubic
  have hne : cubic ≠ [] := List.cons_ne_nil _ _
  obtain ⟨-, -, hshort⟩ := evaluate_and_sample hne
  obtain ⟨hevaluate, -, hends, hfactorial⟩ := hshort (by decide)
  have hthird : evaluate cubic (1 / 3) = ⟨5 / 3, 17 / 9⟩ := by
    rw [(hevaluate _).2]
    norm_num [cubic, casteljau, rung, Plane.lerp]
  exact ⟨hne, hthird, hthird ▸ (hevaluate _).1, (hends 4 (by decide)).1, (hends 4 (by decide)).2,
    hfactorial 2 (by decide)⟩

end Draftboard.Curve
