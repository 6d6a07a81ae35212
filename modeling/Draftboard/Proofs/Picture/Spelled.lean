import Draftboard.Proofs.Number.Arithmetic
import Draftboard.Proofs.Picture.Numeral

/-!
# Draftboard.Proofs.Picture.Spelled

The numbers that written numbers spell.

* A coordinate spells a number nearest to a decimal of four places (`rounds_spelled`), and of a finite
  number that decimal is the nearest one. So the number that is read has the same decimal, and is written
  the same (`coordinate_spelled`): neither it nor the first number is nearer to any other.
* Only what a coordinate stands for is written, and not the sign of a zero
  (`coordinate_eq_of_real_eq`).
-/

namespace Draftboard

/-! ### Digits -/

namespace Literal

theorem digitsValue_append_zeros (s : List Char) (k : ℕ) :
    digitsValue (s ++ List.replicate k '0') = digitsValue s * 10 ^ k := by
  have h := Nat.ofDigitChars_append (b := 10) (l := s) (m := List.replicate k '0') 0
  rw [Nat.ofDigitChars_replicate_zero, Nat.mul_comm] at h
  exact h

theorem digitsValue_padded (count n : ℕ) : digitsValue (Format.padded count n) = n := by
  show Nat.ofDigitChars 10 (List.replicate _ '0' ++ Nat.toDigits 10 n) 0 = n
  rw [Nat.ofDigitChars_append, Nat.ofDigitChars_replicate_zero, Nat.mul_zero,
    Nat.ofDigitChars_ten_toDigits]

end Literal

/-- Of a finite number the sign and the digits are written. -/
theorem Format.fixedPoint_congr {x y : Float} {places : ℕ} (hx : x.isFinite = true)
    (hy : y.isFinite = true) (hsign : Exact.isNegative x = Exact.isNegative y)
    (hdigits : (Decimal.atPlaces places x).digits = (Decimal.atPlaces places y).digits) :
    fixedPoint places x = fixedPoint places y := by
  rw [Exact.isFinite_eq, Bool.not_eq_true', Bool.or_eq_false_iff] at hx hy
  rw [fixedPoint, fixedPoint, signOf, signOf, hx.1, hx.2, hy.1, hy.2, hsign, hdigits]

namespace Exact

/-- The negatives are as near to each other. -/
theorem Rounds.neg {q : ℝ} {x : Float} (h : Rounds q x) : Rounds (-q) (-x) where
  isFinite := (isFinite_neg x).trans h.isFinite
  near y hy := by
    have hnear := h.near (-y) ((isFinite_neg y).trans hy)
    rw [real_neg, ← abs_neg (-real y - q)] at hnear
    rw [real_neg, ← abs_neg]
    convert hnear using 2 <;> ring
  error := by
    rw [real_neg, ← abs_neg, abs_neg q]
    convert h.error using 2
    ring

/-- A number nearest to a decimal that a finite number is rounded to has the same digits. -/
theorem digits_eq_of_rounds {x z : Float} {places : ℕ} (hx : x.isFinite = true)
    (h : Rounds ((Decimal.atPlaces places x).digits / 10 ^ places) z) :
    (Decimal.atPlaces places z).digits = (Decimal.atPlaces places x).digits := by
  have hhalf := halfEven_atPlaces places x
  generalize (Decimal.atPlaces places x).digits = n at h hhalf
  refine (halfEven_atPlaces places z).unique (hhalf.of_nearer ?_)
  obtain ⟨y, hy, hyx⟩ := exists_real_eq_abs hx
  have hten : (0 : ℝ) < 10 ^ places := by positivity
  have hscale : ∀ a : ℝ, |a * 10 ^ places - n| = |a - n / 10 ^ places| * 10 ^ places := by
    intro a
    rw [← abs_of_pos hten, ← abs_mul, abs_of_pos hten, sub_mul, div_mul_cancel₀ _ hten.ne']
  have hdecimal : (0 : ℝ) ≤ n / 10 ^ places := by positivity
  have hnear : |(|real z|) - n / 10 ^ places| ≤ |(|real x|) - n / 10 ^ places| := by
    calc |(|real z|) - n / 10 ^ places| = abs (|real z| - |(n : ℝ) / 10 ^ places|) := by
          rw [abs_of_nonneg hdecimal]
      _ ≤ |real z - n / 10 ^ places| := abs_abs_sub_abs_le _ _
      _ ≤ |real y - n / 10 ^ places| := h.near y hy
      _ = |(|real x|) - n / 10 ^ places| := by rw [hyx]
  rw [hscale, hscale]
  exact mul_le_mul_of_nonneg_right hnear hten.le

end Exact

namespace Picture

open Literal Exact

variable {x y : Float}

/-! ### Lengths -/

/-- What the text of a finite number without a sign spells. -/
theorem value_fixedPoint (hx : x.isFinite = true) (hsign : isNegative x = false) {places : ℕ}
    (hplaces : places ≠ 0) :
    Literal.value (Format.fixedPoint places x) =
      Decimal.toFloat ⟨(Decimal.atPlaces places x).digits, -(places : ℤ)⟩ := by
  obtain ⟨w, f, -, -, -, -, hcat, hread⟩ := read?_fixedPoint hx hsign hplaces
  rw [Literal.value, hread, hcat, digitsValue_padded]
  rfl

/-! ### Coordinates -/

theorem coordinate_of_digits_eq_zero (hx : x.isFinite = true)
    (h : (Decimal.atPlaces 4 x).digits = 0) : coordinate x = ['0'] := by
  have hfinite := hx
  rw [Exact.isFinite_eq, Bool.not_eq_true', Bool.or_eq_false_iff] at hfinite
  rw [coordinate, Format.fixedPoint, hfinite.1, hfinite.2, h, Format.signOf]
  cases isNegative x <;> decide

/-- The sign of a zero is dropped only where there is nothing else. -/
theorem coordinate_of_digits_ne_zero (hx : x.isFinite = true)
    (h : (Decimal.atPlaces 4 x).digits ≠ 0) : coordinate x = trimZeros (Format.fixedPoint 4 x) := by
  refine if_neg fun hzero => h ?_
  obtain ⟨w, g, k, htrim, hne, hw, hg, hcat, -⟩ := trimZeros_fixedPoint hx
  rw [htrim] at hzero
  have hpointed : pointed w g = ['0'] := by
    have hhead : ∀ c, pointed w g ≠ '-' :: c := fun c hc =>
      absurd (mem_pointed hw hg (hc ▸ List.mem_cons_self)) (by decide)
    unfold Format.signOf at hzero
    split at hzero
    · exact (List.cons.inj hzero).2
    · exact absurd hzero (hhead _)
  have hg0 : g = [] := by
    by_contra hgne
    rw [pointed, if_neg hgne] at hpointed
    have hlength := congrArg List.length hpointed
    have hpos := List.length_pos_of_ne_nil hne
    simp at hlength
    omega
  rw [pointed, if_pos hg0] at hpointed
  rw [← digitsValue_padded 5 (Decimal.atPlaces 4 x).digits, ← hcat, hg0, hpointed,
    digitsValue_append_zeros]
  exact Nat.zero_mul _

/-- A coordinate other than zero spells its decimal of four places, with its sign. -/
theorem exists_toFloat_coordinate (hx : x.isFinite = true)
    (h : (Decimal.atPlaces 4 x).digits ≠ 0) :
    ∃ d : Decimal, Rounds ((Decimal.atPlaces 4 x).digits / 10 ^ 4) d.toFloat ∧
      Literal.value (coordinate x) = if isNegative x then -d.toFloat else d.toFloat := by
  obtain ⟨w, g, k, htrim, hne, hw, hg, hcat, hlength, -⟩ := trimZeros_fixedPoint hx
  have hdecimal : (digitsValue (w ++ g) : ℝ) * 10 ^ (-(g.length : ℤ)) =
      (Decimal.atPlaces 4 x).digits / 10 ^ 4 := by
    have hdigits : digitsValue (w ++ g) * 10 ^ k = (Decimal.atPlaces 4 x).digits := by
      rw [← digitsValue_append_zeros, hcat, digitsValue_padded]
    rw [← hdigits, ← hlength, pow_add, zpow_neg, zpow_natCast]
    push_cast
    field_simp
  have hlimit : ((Decimal.atPlaces 4 x).digits : ℝ) / 10 ^ 4 < overflow := by
    refine lt_of_le_of_lt ?_ (abs_real_add_one_lt hx)
    have hnear := abs_le.1 (halfEven_atPlaces 4 x).near
    rw [div_le_iff₀ (by positivity)]
    linarith
  refine ⟨⟨digitsValue (w ++ g), -(g.length : ℤ)⟩, ?_, ?_⟩
  · rw [← hdecimal] at hlimit ⊢
    exact rounds_toFloat (d := ⟨digitsValue (w ++ g), -(g.length : ℤ)⟩) (by dsimp only; omega)
      (by dsimp only; omega) hlimit
  · have hfigures : pointed w g ⊆ figures := fun c hc => mem_figures_of_mem_pointed hw hg hc
    have hmagnitude := readMagnitude?_pointed hne hw hg
    have hpointed : pointed w g ≠ [] := ne_nil_of_readMagnitude? (by rw [hmagnitude]; rfl)
    rw [coordinate_of_digits_ne_zero hx h, htrim, Literal.value, Format.signOf,
      read?_signed hpointed hfigures, hmagnitude]
    rfl

/-- A coordinate spells a number nearest to its decimal of four places. -/
theorem rounds_spelled (hx : x.isFinite = true) :
    Rounds ((if isNegative x then -1 else 1) * ((Decimal.atPlaces 4 x).digits / 10 ^ 4))
      (Literal.value (coordinate x)) := by
  by_cases h : (Decimal.atPlaces 4 x).digits = 0
  · have hzero : real (Literal.value ['0']) = 0 := real_pack_zero _
    rw [coordinate_of_digits_eq_zero hx h, h]
    exact .of_real_eq (by decide +kernel) (by rw [hzero]; simp)
  · obtain ⟨d, hd, hvalue⟩ := exists_toFloat_coordinate hx h
    rw [hvalue]
    cases isNegative x with
    | false => simpa using hd
    | true => simpa using hd.neg

/-- What a coordinate spells is a finite number with the same digits, and the same sign if it is
not zero. -/
theorem spelled_coordinate (hx : x.isFinite = true) :
    (Literal.value (coordinate x)).isFinite = true ∧
      (Decimal.atPlaces 4 (Literal.value (coordinate x))).digits = (Decimal.atPlaces 4 x).digits ∧
      ((Decimal.atPlaces 4 x).digits ≠ 0 →
        isNegative (Literal.value (coordinate x)) = isNegative x) := by
  refine ⟨(rounds_spelled hx).isFinite, ?_⟩
  by_cases h : (Decimal.atPlaces 4 x).digits = 0
  · rw [coordinate_of_digits_eq_zero hx h, h]
    exact ⟨by decide +kernel, fun hne => absurd rfl hne⟩
  · obtain ⟨d, hrounds, hvalue⟩ := exists_toFloat_coordinate hx h
    have hdigits := digits_eq_of_rounds hx hrounds
    have hpositive := isNegative_toFloat d
    rw [hvalue]
    cases hsign : isNegative x with
    | false => exact ⟨hdigits, fun _ => hpositive⟩
    | true =>
      refine ⟨(halfEven_atPlaces 4 _).unique ?_, fun _ => ?_⟩
      · show HalfEven (|real (-d.toFloat)| * 10 ^ 4) _
        rw [real_neg, abs_neg, ← hdigits]
        exact halfEven_atPlaces 4 _
      · show isNegative (-d.toFloat) = true
        rw [isNegative_neg hrounds.isFinite, hpositive]
        rfl

/-- A coordinate is written by its digits, and by its sign if it is not zero. -/
theorem coordinate_congr (hx : x.isFinite = true) (hy : y.isFinite = true)
    (hdigits : (Decimal.atPlaces 4 x).digits = (Decimal.atPlaces 4 y).digits)
    (hsign : (Decimal.atPlaces 4 y).digits ≠ 0 → isNegative x = isNegative y) :
    coordinate x = coordinate y := by
  by_cases h : (Decimal.atPlaces 4 y).digits = 0
  · rw [coordinate_of_digits_eq_zero hy h, coordinate_of_digits_eq_zero hx (hdigits.trans h)]
  · rw [coordinate, coordinate, Format.fixedPoint_congr hx hy (hsign h) hdigits]

/-- A coordinate spells a number within a grid unit. -/
theorem abs_real_spelled_le (hx : x.isFinite = true) :
    |real (Literal.value (coordinate x))| ≤ |real x| + 1 := by
  obtain ⟨-, hdigits, -⟩ := spelled_coordinate hx
  have hspelled := abs_le.1 (halfEven_atPlaces 4 (Literal.value (coordinate x))).near
  have hnear := abs_le.1 (halfEven_atPlaces 4 x).near
  rw [hdigits] at hspelled
  linarith

/-- The text of a finite coordinate spells a number that has the same text. -/
theorem coordinate_spelled (hx : x.isFinite = true) :
    coordinate (Literal.value (coordinate x)) = coordinate x := by
  obtain ⟨hfinite, hdigits, hsign⟩ := spelled_coordinate hx
  exact coordinate_congr hfinite hx hdigits hsign

/-- Finite numbers that stand for the same are written the same. -/
theorem coordinate_eq_of_real_eq (hx : x.isFinite = true) (hy : y.isFinite = true)
    (h : real x = real y) : coordinate x = coordinate y := by
  have hhalf := halfEven_atPlaces 4 x
  rw [h] at hhalf
  have hdigits := hhalf.unique (halfEven_atPlaces 4 y)
  refine coordinate_congr hx hy hdigits fun hne => ?_
  -- Zero has no digits, so here the sign is that of the real.
  have hreal : real y ≠ 0 := by
    intro hzero
    have hhalf := halfEven_atPlaces 4 y
    rw [hzero, abs_zero, zero_mul] at hhalf
    exact hne (hhalf.unique (.of_lt (by norm_num)))
  rw [Bool.eq_iff_iff, isNegative_iff hreal, isNegative_iff (h ▸ hreal), h]

end Picture

end Draftboard
