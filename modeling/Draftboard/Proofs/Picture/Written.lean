import Draftboard.Proofs.Picture.Spelled
import Draftboard.Proofs.Picture.Token

/-!
# Draftboard.Proofs.Picture.Written

The text of a finite coordinate.

* It is a literal of its own in any path: it has no character that ends a vector, a coordinate or a
  statement, and no double hyphen. Digits follow its point up to one that is not zero, and zero has no
  sign (`IsCanonical`).
* It is the shortest text of the nearest decimal of four places, so it does not change when it is read and
  written again (`coordinate_canonical`).
-/

namespace Draftboard

/-- At most the sign of a numeral is a hyphen. -/
theorem IsNumeral.count_hyphen_le {s : List Char} (h : IsNumeral s) : s.count '-' ≤ 1 := by
  obtain ⟨negative, rest, hrest, -, rfl⟩ := h
  have hnone : rest.count '-' = 0 := List.count_eq_zero.2 fun hc => absurd (hrest hc) (by decide)
  rw [List.count_append, hnone]
  cases negative <;> decide

namespace Picture

open Literal Exact

/-- A literal that neither a path nor a statement is split at, in its shortest form. -/
structure IsCanonical (s : List Char) : Prop where
  valid : Literal.Valid s
  trimmed : ∀ whole fraction, s = whole ++ '.' :: fraction →
    fraction ≠ [] ∧ fraction.getLast? ≠ some '0'
  not_negative_zero : s ≠ ['-', '0']
  not_mem : ∀ c ∈ ['(', ')', ',', ';'], c ∉ s
  no_hyphens : ¬ ['-', '-'] <:+: s

variable {x : Float}

/-- What is behind the point ends with a digit other than zero. -/
theorem trimmed_coordinate (hx : x.isFinite = true) {whole fraction : List Char}
    (h : coordinate x = whole ++ '.' :: fraction) :
    fraction ≠ [] ∧ fraction.getLast? ≠ some '0' := by
  have hpoint : '.' ∈ coordinate x := by rw [h]; simp
  have hdigits : (Decimal.atPlaces 4 x).digits ≠ 0 := by
    intro hzero
    rw [coordinate_of_digits_eq_zero hx hzero] at hpoint
    exact absurd hpoint (by decide)
  obtain ⟨w, g, k, htrim, -, hw, hg, -, -, hlast⟩ := trimZeros_fixedPoint hx
  rw [coordinate_of_digits_ne_zero hx hdigits, htrim] at h hpoint
  have hgne : g ≠ [] := by
    rintro rfl
    rw [pointed, if_pos rfl, List.mem_append] at hpoint
    rcases hpoint with hc | hc
    · exact Format.point_not_mem_signOf x hc
    · exact absurd (hw _ hc) (by decide)
  rw [pointed, if_neg hgne, ← List.append_assoc] at h
  -- The text ends with the last digit, whatever is before the point.
  have hend : g.getLast? = ('.' :: fraction).getLast? := by
    calc g.getLast? = ('.' :: g).getLast? := (List.getLast?_append_of_ne_nil ['.'] hgne).symm
      _ = (whole ++ '.' :: fraction).getLast? := by rw [← h, List.getLast?_append_cons]
      _ = ('.' :: fraction).getLast? := List.getLast?_append_cons _ _ _
  have hfraction : fraction ≠ [] := by
    rintro rfl
    exact absurd (hg _ (List.mem_of_getLast? hend)) (by decide)
  have hsame : ('.' :: fraction).getLast? = fraction.getLast? :=
    List.getLast?_append_of_ne_nil ['.'] hfraction
  exact ⟨hfraction, by rwa [← hsame, ← hend]⟩

theorem coordinate_ne_negative_zero (x : Float) : coordinate x ≠ ['-', '0'] := by
  unfold coordinate
  dsimp only
  split
  · decide
  · assumption

theorem isCanonical_coordinate (hx : x.isFinite = true) : IsCanonical (coordinate x) := by
  have hnumeral := isNumeral_coordinate x
  refine ⟨hnumeral.valid, fun whole fraction h => trimmed_coordinate hx h,
    coordinate_ne_negative_zero x, Text.not_mem_of_any hnumeral.subset (by decide), fun hinfix => ?_⟩
  have htwo := hinfix.sublist.count_le '-'
  have hone := hnumeral.count_hyphen_le
  rw [List.count_cons_self, List.count_singleton_self] at htwo
  omega

/-- A finite coordinate is written in the shortest way, and what is read from the text is a number nearest to
the decimal of four places that is nearest to the coordinate. The number is written the same. -/
theorem coordinate_canonical (hx : x.isFinite = true) :
    IsCanonical (coordinate x) ∧
    ∃ (n : ℕ) (y : Float), HalfEven (|real x| * 10 ^ 4) n ∧ Literal.read? (coordinate x) = some y ∧
      Rounds ((if isNegative x then -1 else 1) * (n / 10 ^ 4)) y ∧ coordinate y = coordinate x :=
  ⟨isCanonical_coordinate hx, (Decimal.atPlaces 4 x).digits, Literal.value (coordinate x),
    halfEven_atPlaces 4 x, (isNumeral_coordinate x).read?_eq, rounds_spelled hx, coordinate_spelled hx⟩

/-- A number whose neighbours are farther away than the last decimal. -/
theorem coordinate_canonical_far :
    let x : Float := 1234567890123.4
    x.isFinite = true ∧ coordinate x = "1234567890123.3999".toList ∧ IsCanonical (coordinate x) ∧
      ∃ (n : ℕ) (y : Float), HalfEven (|real x| * 10 ^ 4) n ∧
        Literal.read? (coordinate x) = some y ∧
        Rounds ((if isNegative x then -1 else 1) * (n / 10 ^ 4)) y ∧ coordinate y = coordinate x := by
  intro x
  have hfinite : x.isFinite = true := by decide +kernel
  exact ⟨hfinite, by decide +kernel, coordinate_canonical hfinite⟩

/-- A tie goes to the even digit, and what is nearest to zero is written without a sign. -/
example : [(1 / 32 : Float), -0.00004, -2.5].map coordinate =
    ["0.0312".toList, "0".toList, "-2.5".toList] := by decide +kernel

end Picture

end Draftboard
