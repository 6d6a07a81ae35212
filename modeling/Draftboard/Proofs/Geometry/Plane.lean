import Mathlib.Algebra.Order.Field.Basic
import Mathlib.Tactic.FieldSimp
import Mathlib.Tactic.Linarith
import Mathlib.Tactic.LinearCombination
import Mathlib.Tactic.Ring
import Mathlib.Algebra.Order.Ring.Rat
import Draftboard.Geometry.Point

/-!
# Draftboard.Proofs.Geometry.Plane

Segments of the plane, with exact coordinates.

* `turn a b c` is positive if `c` lies to the left of the line from `a` to `b`. It is affine in each of
  its points (`turn_lerp`), as is the height of a point in a given direction (`level_lerp`).
* Two segments without a common point are told apart by their height in some direction
  (`Apart.exists_level_lt`). So they stay apart when one of them is moved a little (`Apart.nudge`).
-/

namespace Draftboard.Plane

variable {a b c d p q z : Point ℚ}

/-! ### Turns and heights -/

/-- Twice the signed area of the triangle `abc`: positive if `c` is to the left of the line from `a`
to `b`. -/
def turn (a b c : Point ℚ) : ℚ := (b.x - a.x) * (c.y - a.y) - (b.y - a.y) * (c.x - a.x)

theorem turn_rotate (a b c : Point ℚ) : turn a b c = turn b c a := by
  simp only [turn]
  ring

theorem turn_swap (a b c : Point ℚ) : turn b a c = -turn a b c := by
  simp only [turn]
  ring

@[simp] theorem turn_self_left (a b : Point ℚ) : turn a b a = 0 := by simp [turn]

@[simp] theorem turn_self_right (a b : Point ℚ) : turn a b b = 0 := by simp [turn, mul_comm]

theorem sq_pos_of_ne (h : a ≠ b) : 0 < (b.x - a.x) ^ 2 + (b.y - a.y) ^ 2 := by
  by_contra hle
  have hx : (b.x - a.x) ^ 2 = 0 := by nlinarith [sq_nonneg (b.x - a.x), sq_nonneg (b.y - a.y)]
  have hy : (b.y - a.y) ^ 2 = 0 := by nlinarith [sq_nonneg (b.x - a.x), sq_nonneg (b.y - a.y)]
  rw [sq_eq_zero_iff] at hx hy
  exact h (Point.ext (by linarith) (by linarith))

/-- The height of a point in the direction `g`. -/
def level (g z : Point ℚ) : ℚ := g.x * z.x + g.y * z.y

/-- The point that divides the way from `a` to `b` in the ratio `t`. -/
def lerp (a b : Point ℚ) (t : ℚ) : Point ℚ := ⟨a.x + t * (b.x - a.x), a.y + t * (b.y - a.y)⟩

@[simp] theorem lerp_zero (a b : Point ℚ) : lerp a b 0 = a := by simp [lerp]

@[simp] theorem lerp_one (a b : Point ℚ) : lerp a b 1 = b := by simp [lerp]

@[simp] theorem lerp_self (a : Point ℚ) (t : ℚ) : lerp a a t = a := by simp [lerp]

theorem turn_lerp (a b c d : Point ℚ) (t : ℚ) :
    turn a b (lerp c d t) = turn a b c + t * (turn a b d - turn a b c) := by
  simp only [turn, lerp]
  ring

theorem level_lerp (g c d : Point ℚ) (t : ℚ) :
    level g (lerp c d t) = level g c + t * (level g d - level g c) := by
  simp only [level, lerp]
  ring

theorem lerp_symm (a b : Point ℚ) (t : ℚ) : lerp b a (1 - t) = lerp a b t := by
  ext <;> simp only [lerp] <;> ring

theorem lerp_lerp_left (a b : Point ℚ) (s t : ℚ) : lerp a (lerp a b s) t = lerp a b (t * s) := by
  ext <;> simp only [lerp] <;> ring

theorem lerp_injective (hne : a ≠ b) : Function.Injective (lerp a b) := by
  intro s t heq
  have hx := congrArg Point.x heq
  have hy := congrArg Point.y heq
  simp only [lerp] at hx hy
  have hsq := sq_pos_of_ne hne
  have hzero : (s - t) * ((b.x - a.x) ^ 2 + (b.y - a.y) ^ 2) = 0 := by
    linear_combination (b.x - a.x) * hx + (b.y - a.y) * hy
  exact sub_eq_zero.1 ((mul_eq_zero.1 hzero).resolve_right hsq.ne')

/-- A point of the line through two points divides the way between them in some ratio. -/
theorem exists_eq_lerp (hne : a ≠ b) (h : turn a b z = 0) : ∃ t, z = lerp a b t := by
  by_cases hx : a.x = b.x
  · have hy : b.y - a.y ≠ 0 := fun heq => hne (Point.ext hx (by linarith))
    refine ⟨(z.y - a.y) / (b.y - a.y), ?_⟩
    have hzx : (b.y - a.y) * (z.x - a.x) = 0 := by
      simp only [turn, ← hx] at h
      linarith
    have hzx' := (mul_eq_zero.1 hzx).resolve_left hy
    ext
    · simp only [lerp, hx, sub_self, mul_zero, add_zero]
      linarith
    · simp only [lerp]
      field_simp
      ring
  · have hx' : b.x - a.x ≠ 0 := fun heq => hx (by linarith)
    refine ⟨(z.x - a.x) / (b.x - a.x), ?_⟩
    ext
    · simp only [lerp]
      field_simp
      ring
    · simp only [lerp]
      field_simp
      simp only [turn] at h
      linarith

/-! ### Segments -/

/-- The points from `a` to `b`. -/
def segment (a b : Point ℚ) : Set (Point ℚ) := {z | ∃ t, 0 ≤ t ∧ t ≤ 1 ∧ z = lerp a b t}

theorem left_mem_segment (a b : Point ℚ) : a ∈ segment a b :=
  ⟨0, le_refl _, zero_le_one, (lerp_zero a b).symm⟩

theorem right_mem_segment (a b : Point ℚ) : b ∈ segment a b :=
  ⟨1, zero_le_one, le_refl _, (lerp_one a b).symm⟩

/-- A part of a segment. -/
theorem mem_segment_of_lerp {s t : ℚ} (hs0 : 0 ≤ s) (hs1 : s ≤ 1) (ht0 : 0 ≤ t) (ht1 : t ≤ 1)
    (h : z ∈ segment (lerp a b s) (lerp a b t)) : z ∈ segment a b := by
  obtain ⟨r, hr0, hr1, rfl⟩ := h
  refine ⟨s + r * (t - s), by nlinarith, by nlinarith, ?_⟩
  ext <;> simp only [lerp] <;> ring

theorem segment_symm (h : z ∈ segment a b) : z ∈ segment b a := by
  obtain ⟨t, ht0, ht1, rfl⟩ := h
  exact ⟨1 - t, by linarith, by linarith, (lerp_symm a b t).symm⟩

/-- What lies between two numbers is below a bound that both are below. -/
theorem between_lt {x y r t : ℚ} (ht0 : 0 ≤ t) (ht1 : t ≤ 1) (hx : x < r) (hy : y < r) :
    x + t * (y - x) < r := by
  rcases le_total x y with hxy | hxy
  · nlinarith [mul_nonneg (sub_nonneg.2 ht1) (sub_nonneg.2 hxy)]
  · nlinarith [mul_nonneg ht0 (sub_nonneg.2 hxy)]

theorem lt_between {x y r t : ℚ} (ht0 : 0 ≤ t) (ht1 : t ≤ 1) (hx : r < x) (hy : r < y) :
    r < x + t * (y - x) := by
  have h := between_lt ht0 ht1 (neg_lt_neg hx) (neg_lt_neg hy)
  linarith

theorem turn_pos_of_mem (h : z ∈ segment c d) (hc : 0 < turn a b c) (hd : 0 < turn a b d) :
    0 < turn a b z := by
  obtain ⟨t, ht0, ht1, rfl⟩ := h
  rw [turn_lerp]
  exact lt_between ht0 ht1 hc hd

theorem turn_nonneg_of_mem (h : z ∈ segment c d) (hc : 0 ≤ turn a b c) (hd : 0 ≤ turn a b d) :
    0 ≤ turn a b z := by
  obtain ⟨t, ht0, ht1, rfl⟩ := h
  rw [turn_lerp]
  nlinarith [mul_nonneg (sub_nonneg.2 ht1) hc, mul_nonneg ht0 hd]

/-- A point of a segment is not farther to the left than both ends. -/
theorem turn_le_of_mem (h : z ∈ segment c d) : turn a b z ≤ turn a b c ∨ turn a b z ≤ turn a b d := by
  obtain ⟨t, ht0, ht1, rfl⟩ := h
  rw [turn_lerp]
  rcases le_total (turn a b c) (turn a b d) with hle | hle
  · exact .inr (by nlinarith)
  · exact .inl (by nlinarith)

theorem level_lt_of_mem {g : Point ℚ} {r : ℚ} (h : z ∈ segment c d) (hc : level g c < r)
    (hd : level g d < r) : level g z < r := by
  obtain ⟨t, ht0, ht1, rfl⟩ := h
  rw [level_lerp]
  exact between_lt ht0 ht1 hc hd

theorem lt_level_of_mem {g : Point ℚ} {r : ℚ} (h : z ∈ segment c d) (hc : r < level g c)
    (hd : r < level g d) : r < level g z := by
  obtain ⟨t, ht0, ht1, rfl⟩ := h
  rw [level_lerp]
  exact lt_between ht0 ht1 hc hd

/-- Two segments without a common point. -/
def Apart (a b c d : Point ℚ) : Prop := ∀ z ∈ segment a b, z ∉ segment c d

/-- The segment from `a` to `b` lies below the one from `c` to `d` in the direction `g`. -/
def Below (g a b c d : Point ℚ) : Prop :=
  (level g a < level g c ∧ level g a < level g d) ∧ level g b < level g c ∧ level g b < level g d

theorem Below.apart {g : Point ℚ} (h : Below g a b c d) : Apart a b c d := by
  obtain ⟨⟨hac, had⟩, hbc, hbd⟩ := h
  intro z hab hcd
  have hc := level_lt_of_mem hab hac hbc
  have hd := level_lt_of_mem hab had hbd
  exact lt_irrefl _ (lt_level_of_mem hcd hc hd)

/-- A segment on one side of a line, with at most one end on the line, is apart from the segments of
the line that do not hold that end. -/
theorem apart_of_turn (ε : ℚ) (ha : 0 ≤ ε * turn c d a) (hb : 0 < ε * turn c d b)
    (hmem : a ∉ segment c d) : Apart a b c d := by
  rintro _ ⟨r, hr0, hr1, rfl⟩ hcd
  have hzero : turn c d (lerp a b r) = 0 := by
    obtain ⟨t, -, -, heq⟩ := hcd
    rw [heq, turn_lerp]
    simp
  have hsplit : (1 - r) * (ε * turn c d a) + r * (ε * turn c d b) = 0 := by
    rw [turn_lerp] at hzero
    linear_combination ε * hzero
  have hr : r = 0 := by
    by_contra hne
    have hpos := mul_pos (lt_of_le_of_ne hr0 (Ne.symm hne)) hb
    nlinarith [mul_nonneg (sub_nonneg.2 hr1) ha]
  rw [hr, lerp_zero] at hcd
  exact hmem hcd

theorem not_mem_of_turn_ne_zero (h : turn c d a ≠ 0) : a ∉ segment c d := by
  rintro ⟨t, -, -, rfl⟩
  exact h (by simp [turn_lerp])

/-- Both ends to the left of a line. -/
theorem apart_of_turn_pos (ha : 0 < turn c d a) (hb : 0 < turn c d b) : Apart a b c d :=
  apart_of_turn 1 (by linarith) (by linarith) (not_mem_of_turn_ne_zero ha.ne')

/-- Both ends to the right of a line. -/
theorem apart_of_turn_neg (ha : turn c d a < 0) (hb : turn c d b < 0) : Apart a b c d :=
  apart_of_turn (-1) (by linarith) (by linarith) (not_mem_of_turn_ne_zero ha.ne)

/-- Segments of two different lines meet unless one of them lies on one side of the other's line. -/
theorem exists_mem_of_turns (hne : turn c d a ≠ turn c d b)
    (hab : ¬ (turn c d a < 0 ∧ turn c d b < 0)) (hab' : ¬ (0 < turn c d a ∧ 0 < turn c d b))
    (hcd : ¬ (turn a b c < 0 ∧ turn a b d < 0)) (hcd' : ¬ (0 < turn a b c ∧ 0 < turn a b d)) :
    ∃ z ∈ segment a b, z ∈ segment c d := by
  have hdiff : turn a b c - turn a b d = -(turn c d a - turn c d b) := by
    simp only [turn]
    ring
  have hratio : ∀ x y : ℚ, x ≠ y → ¬ (x < 0 ∧ y < 0) → ¬ (0 < x ∧ 0 < y) →
      0 ≤ x / (x - y) ∧ x / (x - y) ≤ 1 := by
    intro x y hxy hneg hpos
    rcases lt_or_gt_of_ne hxy with hlt | hlt
    · have hx : x ≤ 0 := by by_contra hx; exact hpos ⟨by linarith, by linarith⟩
      have hy : 0 ≤ y := by by_contra hy; exact hneg ⟨by linarith, by linarith⟩
      rw [← neg_div_neg_eq, div_le_one (by linarith)]
      exact ⟨div_nonneg (by linarith) (by linarith), by linarith⟩
    · have hx : 0 ≤ x := by by_contra hx; exact hneg ⟨by linarith, by linarith⟩
      have hy : y ≤ 0 := by by_contra hy; exact hpos ⟨by linarith, by linarith⟩
      rw [div_le_one (by linarith)]
      exact ⟨div_nonneg hx (by linarith), by linarith⟩
  have hne' : turn a b c ≠ turn a b d := fun heq => hne (by linarith)
  obtain ⟨ht0, ht1⟩ := hratio _ _ hne hab hab'
  obtain ⟨hs0, hs1⟩ := hratio _ _ hne' hcd hcd'
  refine ⟨_, ⟨_, ht0, ht1, rfl⟩, ⟨_, hs0, hs1, ?_⟩⟩
  have hsub : turn c d a - turn c d b ≠ 0 := sub_ne_zero.2 hne
  rw [hdiff]
  ext
  · simp only [lerp]
    field_simp
    simp only [turn]
    ring
  · simp only [lerp]
    field_simp
    simp only [turn]
    ring

/-- The direction in which the height is how far a point is to the left of a line. -/
def leftOf (c d : Point ℚ) : Point ℚ := ⟨-(d.y - c.y), d.x - c.x⟩

theorem level_leftOf (c d z : Point ℚ) : level (leftOf c d) z = level (leftOf c d) c + turn c d z := by
  simp only [level, leftOf, turn]
  ring

theorem level_neg (g z : Point ℚ) : level ⟨-g.x, -g.y⟩ z = -level g z := by
  simp only [level]
  ring

/-- Disjoint segments of one line lie on different sides of a point of it. -/
theorem Apart.exists_below_of_line (h : Apart a b c d) (hcd : c ≠ d) (ha : turn c d a = 0)
    (hb : turn c d b = 0) : ∃ g, Below g a b c d := by
  obtain ⟨α, rfl⟩ := exists_eq_lerp hcd ha
  obtain ⟨β, rfl⟩ := exists_eq_lerp hcd hb
  have hsq : 0 < level ⟨d.x - c.x, d.y - c.y⟩ d - level ⟨d.x - c.x, d.y - c.y⟩ c := by
    have heq : level ⟨d.x - c.x, d.y - c.y⟩ d - level ⟨d.x - c.x, d.y - c.y⟩ c =
        (d.x - c.x) ^ 2 + (d.y - c.y) ^ 2 := by
      simp only [level]
      ring
    rw [heq]
    exact sq_pos_of_ne hcd
  have hmem : ∀ s, 0 ≤ s → s ≤ 1 → lerp (lerp c d α) (lerp c d β) s ∉ segment c d :=
    fun s hs0 hs1 => h _ ⟨s, hs0, hs1, rfl⟩
  have hline : ∀ s, lerp (lerp c d α) (lerp c d β) s = lerp c d (α + s * (β - α)) := by
    intro s
    ext <;> simp only [lerp] <;> ring
  have hout : ∀ s, 0 ≤ s → s ≤ 1 → α + s * (β - α) < 0 ∨ 1 < α + s * (β - α) := by
    intro s hs0 hs1
    by_contra hin
    rw [not_or, not_lt, not_lt] at hin
    exact hmem s hs0 hs1 (hline s ▸ ⟨_, hin.1, hin.2, rfl⟩)
  have hα := hout 0 (le_refl _) zero_le_one
  have hβ := hout 1 zero_le_one (le_refl _)
  rw [zero_mul, add_zero] at hα
  rw [one_mul, add_sub_cancel] at hβ
  rcases hα with hα | hα
  · have hβ' : β < 0 := by
      rcases hβ with hβ | hβ
      · exact hβ
      · have hs := hout (-α / (β - α)) (div_nonneg (by linarith) (by linarith))
          (by rw [div_le_one (by linarith)]; linarith)
        rw [div_mul_cancel₀ _ (by linarith)] at hs
        rcases hs with hs | hs <;> linarith
    refine ⟨⟨d.x - c.x, d.y - c.y⟩, ⟨?_, ?_⟩, ?_, ?_⟩ <;> rw [level_lerp] <;> nlinarith
  · have hβ' : 1 < β := by
      rcases hβ with hβ | hβ
      · have hs := hout (α / (α - β)) (div_nonneg (by linarith) (by linarith))
          (by rw [div_le_one (by linarith)]; linarith)
        rw [← neg_sub α β, mul_neg, div_mul_cancel₀ _ (by linarith)] at hs
        rcases hs with hs | hs <;> linarith
      · exact hβ
    refine ⟨⟨-(d.x - c.x), -(d.y - c.y)⟩, ⟨?_, ?_⟩, ?_, ?_⟩ <;>
      rw [level_neg ⟨d.x - c.x, d.y - c.y⟩, level_neg ⟨d.x - c.x, d.y - c.y⟩, level_lerp] <;> nlinarith

/-- Segments without a common point are told apart by their height in some direction. -/
theorem Apart.exists_below (h : Apart a b c d) (hcd : c ≠ d) : ∃ g, Below g a b c d := by
  by_cases hab : turn c d a < 0 ∧ turn c d b < 0
  · refine ⟨leftOf c d, ?_⟩
    simp only [Below, level_leftOf c d a, level_leftOf c d b, level_leftOf c d d, turn_self_right]
    exact ⟨⟨by linarith, by linarith⟩, by linarith, by linarith⟩
  by_cases hab' : 0 < turn c d a ∧ 0 < turn c d b
  · refine ⟨⟨-(leftOf c d).x, -(leftOf c d).y⟩, ?_⟩
    simp only [Below, level_neg, level_leftOf c d a, level_leftOf c d b, level_leftOf c d d,
      turn_self_right]
    exact ⟨⟨by linarith, by linarith⟩, by linarith, by linarith⟩
  by_cases hcd' : 0 < turn a b c ∧ 0 < turn a b d
  · refine ⟨leftOf a b, ?_⟩
    simp only [Below, level_leftOf a b b, level_leftOf a b c, level_leftOf a b d, turn_self_right]
    exact ⟨⟨by linarith, by linarith⟩, by linarith, by linarith⟩
  by_cases hcd'' : turn a b c < 0 ∧ turn a b d < 0
  · refine ⟨⟨-(leftOf a b).x, -(leftOf a b).y⟩, ?_⟩
    simp only [Below, level_neg, level_leftOf a b b, level_leftOf a b c, level_leftOf a b d,
      turn_self_right]
    exact ⟨⟨by linarith, by linarith⟩, by linarith, by linarith⟩
  by_cases hne : turn c d a = turn c d b
  · have hzero : turn c d a = 0 := by
      by_contra hne'
      rcases lt_or_gt_of_ne hne' with hlt | hlt
      · exact hab ⟨hlt, hne ▸ hlt⟩
      · exact hab' ⟨hlt, hne ▸ hlt⟩
    exact h.exists_below_of_line hcd hzero (hne ▸ hzero)
  · obtain ⟨z, hz, hz'⟩ := exists_mem_of_turns hne hab hab' hcd'' hcd'
    exact absurd hz' (h z hz)

/-! ### Small moves -/

/-- What is below a bound stays below it for a while. -/
theorem exists_add_mul_lt {x y : ℚ} (h : x < y) (k : ℚ) :
    ∃ t₀, 0 < t₀ ∧ ∀ t, 0 ≤ t → t ≤ t₀ → x + t * k < y := by
  have hk : 0 < |k| + 1 := by positivity
  refine ⟨(y - x) / 2 / (|k| + 1), div_pos (by linarith) hk, fun t ht0 ht => ?_⟩
  rw [le_div_iff₀ hk] at ht
  have habs := le_abs_self k
  nlinarith

/-- Segments that are apart stay apart when the ends of one of them move a little. -/
theorem Apart.nudge (h : Apart a b c d) (hcd : c ≠ d) (p q : Point ℚ) :
    ∃ t₀, 0 < t₀ ∧ ∀ t, 0 ≤ t → t ≤ t₀ → Apart (lerp a p t) (lerp b q t) c d := by
  obtain ⟨g, ⟨hac, had⟩, hbc, hbd⟩ := h.exists_below hcd
  obtain ⟨t₁, ht₁, h₁⟩ := exists_add_mul_lt hac (level g p - level g a)
  obtain ⟨t₂, ht₂, h₂⟩ := exists_add_mul_lt had (level g p - level g a)
  obtain ⟨t₃, ht₃, h₃⟩ := exists_add_mul_lt hbc (level g q - level g b)
  obtain ⟨t₄, ht₄, h₄⟩ := exists_add_mul_lt hbd (level g q - level g b)
  refine ⟨min (min t₁ t₂) (min t₃ t₄), lt_min (lt_min ht₁ ht₂) (lt_min ht₃ ht₄), fun t ht0 ht => ?_⟩
  simp only [le_min_iff] at ht
  refine Below.apart (g := g) ⟨⟨?_, ?_⟩, ?_, ?_⟩
  · rw [level_lerp]; exact h₁ t ht0 ht.1.1
  · rw [level_lerp]; exact h₂ t ht0 ht.1.2
  · rw [level_lerp]; exact h₃ t ht0 ht.2.1
  · rw [level_lerp]; exact h₄ t ht0 ht.2.2

/-- What holds of each entry of a list for a while holds of all of them for a while. -/
theorem exists_while {β : Type} (P : ℚ → β → Prop) (es : List β)
    (h : ∀ e ∈ es, ∃ t₀, 0 < t₀ ∧ ∀ t, 0 ≤ t → t ≤ t₀ → P t e) :
    ∃ t₀, 0 < t₀ ∧ ∀ t, 0 ≤ t → t ≤ t₀ → ∀ e ∈ es, P t e := by
  induction es with
  | nil => exact ⟨1, zero_lt_one, by simp⟩
  | cons e es ih =>
    obtain ⟨t₁, ht₁, h₁⟩ := h e (by simp)
    obtain ⟨t₂, ht₂, h₂⟩ := ih fun f hf => h f (by simp [hf])
    refine ⟨min t₁ t₂, lt_min ht₁ ht₂, fun t ht0 ht f hf => ?_⟩
    rw [le_min_iff] at ht
    rcases List.mem_cons.1 hf with rfl | hf
    · exact h₁ t ht0 ht.1
    · exact h₂ t ht0 ht.2 f hf

end Draftboard.Plane
