import Draftboard.Geometry.Point
import Draftboard.Proofs.Number.Arithmetic

/-!
# Draftboard.Proofs.Geometry.Rim

The distance to a rim point that stands at a radius to the right of a centre.

The rim point is rounded, and so are the way back to the centre, the square and the root. Up to
`2 ^ 41` a point is off by at most a two thousandth each time, and the root of a square by three
(`sqrt_mul_self`), so the distance is the radius to within a quarter of a hundredth
(`distance_right`).
-/

namespace Draftboard

namespace Exact

/-! ### Sums that are exact -/

/-- A number added to zero and taken off again leaves zero. -/
theorem add_zero_sub_self {x : Float} (hx : x.isFinite = true) : x + 0 - x = 0 := by
  rcases cases_of_isFinite hx with ⟨s, hxu⟩ | ⟨s, m, e, hm, hxu⟩
  · rw [eq_pack_zero hxu]
    cases s <;> decide +kernel
  · have hadd : x + 0 = x := by
      have hsum : x + 0 = pack (Float.Model.UnpackedFloat.add Float.Model.Format.binary64 (unpack x)
        (unpack 0)) := rfl
      rw [hsum, unpack_zero, ← pack_unpack x, hxu, unpack_pack s (canonical_of_unpack hxu)]
      rfl
    have hsub : x - x = pack (Float.Model.UnpackedFloat.sub Float.Model.Format.binary64 (unpack x)
      (unpack x)) := rfl
    rw [hadd, hsub, hxu]
    show pack (Float.Model.UnpackedFloat.normalize _ (_ - _) _ _) = 0
    rw [Int.sub_self]
    rfl

theorem fusedMulAdd_self_zero {x : Float} (hx : x.isFinite = true) :
    fusedMulAdd x x 0 = x * x := by
  rcases cases_of_isFinite hx with ⟨s, hxu⟩ | ⟨s, m, e, hm, hxu⟩
  · rw [eq_pack_zero hxu]
    cases s <;> decide +kernel
  · unfold fusedMulAdd
    rw [hxu, unpack_zero]

/-! ### Errors of moderate numbers -/

/-- A number of at most 42 bits before the point is nearest to within a two thousandth. -/
theorem Rounds.error_le {q : ℝ} {x : Float} (h : Rounds q x) (hq : |q| ≤ 2 ^ 42 + 1) :
    |real x - q| ≤ 1 / 2000 := by
  have hunit : (2 : ℝ) ^ (-1075 : ℤ) ≤ 2 ^ (-20 : ℤ) :=
    zpow_le_zpow_right₀ one_le_two (by norm_num)
  calc |real x - q| ≤ |q| / 2 ^ 53 + 2 ^ (-1075 : ℤ) := h.error
    _ ≤ (2 ^ 42 + 1) / 2 ^ 53 + 2 ^ (-20 : ℤ) := by gcongr
    _ ≤ 1 / 2000 := by norm_num

/-- The root of what is almost a square. -/
theorem abs_sqrt_sub_abs_le {p d ε : ℝ} (hε : 0 < ε) (h : |p - d ^ 2| ≤ |d| * ε / 2 + ε ^ 2 / 2) :
    abs (Real.sqrt p - |d|) ≤ ε := by
  have hsq : d ^ 2 = |d| ^ 2 := (sq_abs d).symm
  have hd := abs_nonneg d
  rw [hsq] at h
  generalize |d| = a at h hd
  obtain ⟨hlow, hhigh⟩ := abs_le.1 h
  have haε := mul_nonneg hd hε.le
  rw [abs_le]
  constructor
  · rcases le_or_gt a ε with hsmall | hlarge
    · have := Real.sqrt_nonneg p
      linarith
    · have hroot : a - ε ≤ Real.sqrt p := by
        refine Real.le_sqrt_of_sq_le ?_
        have : ε * ε ≤ a * ε := by gcongr
        linarith
      linarith
  · have hroot : Real.sqrt p ≤ a + ε := by
      rw [Real.sqrt_le_left (by linarith)]
      linarith [sq_nonneg ε]
    linarith

/-- Squaring a number and taking the root gives its magnitude again, but for a rounding error. -/
theorem sqrt_mul_self {d : Float} (hd : d.isFinite = true) (hle : |real d| ≤ 2 ^ 41 + 1) :
    (d * d).sqrt.isFinite = true ∧ abs (real (d * d).sqrt - |real d|) ≤ 3 / 2000 := by
  have hsq : |real d * real d| ≤ 2 ^ 100 := by
    rw [abs_mul]
    calc |real d| * |real d| ≤ (2 ^ 41 + 1) * (2 ^ 41 + 1) := by gcongr
      _ ≤ 2 ^ 100 := by norm_num
  have hp := rounds_mul hd hd (lt_overflow hsq)
  have hroot : abs (Real.sqrt (real (d * d)) - |real d|) ≤ 1 / 1000 := by
    refine abs_sqrt_sub_abs_le (by norm_num) ?_
    have hunit : (2 : ℝ) ^ (-1075 : ℤ) ≤ 2 ^ (-30 : ℤ) :=
      zpow_le_zpow_right₀ one_le_two (by norm_num)
    calc |real (d * d) - real d ^ 2| ≤ |real d| * |real d| / 2 ^ 53 + 2 ^ (-1075 : ℤ) := by
          rw [sq, ← abs_mul]
          exact hp.error
      _ ≤ |real d| * (2 ^ 41 + 1) / 2 ^ 53 + 2 ^ (-30 : ℤ) := by gcongr
      _ ≤ |real d| * (1 / 1000) / 2 + (1 / 1000) ^ 2 / 2 := by
        have := abs_nonneg (real d)
        norm_num
        linarith
  have hroot' := abs_le.1 hroot
  have hroot_abs : |Real.sqrt (real (d * d))| ≤ 2 ^ 42 + 1 := by
    rw [abs_of_nonneg (Real.sqrt_nonneg _)]
    linarith
  have hq := rounds_sqrt hp.isFinite (real_nonneg (isNegative_mul_self d))
    (lt_overflow ((le_abs_self _).trans (hroot_abs.trans (by norm_num))))
  have hq_error := abs_le.1 (hq.error_le hroot_abs)
  refine ⟨hq.isFinite, ?_⟩
  rw [abs_le]
  constructor <;> linarith

end Exact

/-! ### The distance -/

open Exact

/-- To a point on the same height only the abscissas count. -/
theorem Point.distance_right_eq {c : Point Float} {r : Float} (hy : c.y.isFinite = true)
    (hd : (c.x + r - c.x).isFinite = true) :
    c.distance (c + ⟨r, Scalar.zero⟩) = ((c.x + r - c.x) * (c.x + r - c.x)).sqrt := by
  have hdy : c.y + 0 - c.y = 0 := add_zero_sub_self hy
  have hsquare : c.distance (c + ⟨r, Scalar.zero⟩) =
      (fusedMulAdd (c.x + r - c.x) (c.x + r - c.x) ((c.y + 0 - c.y) * (c.y + 0 - c.y))).sqrt := rfl
  have hzero : (0 : Float) * 0 = 0 := by decide +kernel
  rw [hsquare, hdy, hzero, fusedMulAdd_self_zero hd]

/-- The distance to a point at a radius to the right is the radius, but for a quarter of a
hundredth. -/
theorem Point.distance_right {c : Point Float} {r : Float} (hx : c.x.isFinite = true)
    (hy : c.y.isFinite = true) (hr : r.isFinite = true) (hcx : |real c.x| ≤ 2 ^ 41)
    (hrad : |real r| ≤ 2 ^ 41) :
    (c.distance (c + ⟨r, Scalar.zero⟩)).isFinite = true ∧
      abs (real (c.distance (c + ⟨r, Scalar.zero⟩)) - |real r|) ≤ 1 / 400 := by
  -- Each operation adds its own error.
  have hsum : |real c.x + real r| ≤ 2 ^ 42 := by
    have := abs_add_le (real c.x) (real r)
    linarith
  have hs := rounds_add hx hr (lt_overflow (hsum.trans (by norm_num)))
  have hs_error := abs_le.1 (hs.error_le (by linarith))
  have hback : |real (c.x + r) - real c.x| ≤ 2 ^ 42 + 1 := by
    have := abs_le.1 hrad
    rw [abs_le]
    constructor <;> linarith
  have hd := rounds_sub hs.isFinite hx (lt_overflow (hback.trans (by norm_num)))
  have hd_error := abs_le.1 (hd.error_le hback)
  rw [distance_right_eq hy hd.isFinite]
  generalize c.x + r - c.x = d at hd hd_error
  have hdr : |real d - real r| ≤ 1 / 1000 := by
    rw [abs_le]
    constructor <;> linarith
  have hd_abs : |real d| ≤ 2 ^ 41 + 1 := by
    have := abs_sub_abs_le_abs_sub (real d) (real r)
    linarith
  obtain ⟨hfinite, hroot⟩ := sqrt_mul_self hd.isFinite hd_abs
  have hroot' := abs_le.1 hroot
  have hdr' := abs_le.1 ((abs_abs_sub_abs_le (real d) (real r)).trans hdr)
  refine ⟨hfinite, ?_⟩
  rw [abs_le]
  constructor <;> linarith

end Draftboard
