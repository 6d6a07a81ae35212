import Mathlib.Algebra.Order.Ring.Rat
import Mathlib.Data.Rat.Floor
import Draftboard.Geometry.Point

/-!
# Draftboard.Proofs.Number.Rational

Coordinates that are rational numbers, so that no operation rounds.

Roots and angles lead out of the rational numbers. What is said about points with rational coordinates
holds whatever is put in their place (`Scalar.Functions`).
-/

namespace Draftboard

/-- What drawing asks of a coordinate beyond arithmetic and order. -/
class Scalar.Functions (α : Type) where
  sqrt : α → α
  cbrt : α → α
  hypot : α → α → α
  sin : α → α
  cos : α → α
  atan2 : α → α → α
  pi : α

instance {α : Type} [Zero α] : Inhabited (Scalar.Functions α) :=
  ⟨⟨fun _ => 0, fun _ => 0, fun _ _ => 0, fun _ => 0, fun _ => 0, fun _ _ => 0, 0⟩⟩

variable [Scalar.Functions ℚ]

instance : Scalar ℚ where
  ofNat n := n
  decLt := inferInstance
  decLe := inferInstance
  fusedMulAdd a b c := a * b + c
  roundHalfAway x := if x < 0 then -⌊1 / 2 - x⌋ else ⌊x + 1 / 2⌋
  toCount x := ⌊x⌋.toNat
  sqrt := Scalar.Functions.sqrt
  cbrt := Scalar.Functions.cbrt
  hypot := Scalar.Functions.hypot
  sin := Scalar.Functions.sin
  cos := Scalar.Functions.cos
  atan2 := Scalar.Functions.atan2
  pi := Scalar.Functions.pi

@[simp] theorem Scalar.zero_rat : (Scalar.zero : ℚ) = 0 := Nat.cast_zero

@[simp] theorem Scalar.one_rat : (Scalar.one : ℚ) = 1 := Nat.cast_one

@[simp] theorem Scalar.ofNat_rat (n : ℕ) : (Scalar.ofNat n : ℚ) = n := rfl

theorem Scalar.ratio_rat (a b : ℕ) : (Scalar.ratio a b : ℚ) = a / b := rfl

/-- Repeated squaring gives the power. -/
theorem Scalar.power_rat (x : ℚ) (n : ℕ) : Scalar.power x n = x ^ n := by
  have hgo : ∀ (n : ℕ) (acc square : ℚ), Scalar.power.go acc square n = acc * square ^ n := by
    intro n
    induction n using Nat.strongRecOn with
    | ind n ih =>
      intro acc square
      have hbit : (if n % 2 = 1 then acc * square else acc) = acc * square ^ (n % 2) := by
        rcases Nat.mod_two_eq_zero_or_one n with h | h <;> simp [h]
      have hsplit : square ^ n = square ^ (n % 2) * (square * square) ^ (n / 2) := by
        rw [← pow_two, ← pow_mul, ← pow_add, Nat.mod_add_div]
      rw [Scalar.power.go, hsplit, ← mul_assoc, ← hbit]
      split
      · rename_i hlast
        rw [hlast, pow_zero, mul_one]
      · rename_i hmore
        exact ih _ (Nat.div_lt_self (by omega) (by omega)) _ _
  rw [Scalar.power, hgo, Scalar.one_rat, one_mul]

namespace Point

@[simp] theorem x_add_rat (p q : Point ℚ) : (p + q).x = p.x + q.x := rfl

@[simp] theorem y_add_rat (p q : Point ℚ) : (p + q).y = p.y + q.y := rfl

@[simp] theorem x_sub_rat (p q : Point ℚ) : (p - q).x = p.x - q.x := rfl

@[simp] theorem y_sub_rat (p q : Point ℚ) : (p - q).y = p.y - q.y := rfl

@[simp] theorem x_scale_rat (p : Point ℚ) (k : ℚ) : (p.scale k).x = p.x * k := rfl

@[simp] theorem y_scale_rat (p : Point ℚ) (k : ℚ) : (p.scale k).y = p.y * k := rfl

@[simp] theorem x_origin_rat : (origin : Point ℚ).x = 0 := Scalar.zero_rat

@[simp] theorem y_origin_rat : (origin : Point ℚ).y = 0 := Scalar.zero_rat

instance : LawfulBEq (Point ℚ) where
  eq_of_beq {p q} h := by
    have hxy : (p.x == q.x && p.y == q.y) = true := h
    simp only [Bool.and_eq_true, beq_iff_eq] at hxy
    exact Point.ext hxy.1 hxy.2
  rfl {p} := by
    change (p.x == p.x && p.y == p.y) = true
    simp

theorem cross_rat (p q : Point ℚ) : p.cross q = p.x * q.y - p.y * q.x := rfl

theorem cross_sub_rat (a b c d : Point ℚ) :
    (b - a).cross (d - c) = (b.x - a.x) * (d.y - c.y) - (b.y - a.y) * (d.x - c.x) := rfl

end Point

end Draftboard
