import Draftboard.Proofs.Number.Equality
import Draftboard.Proofs.Number.Unit
import Draftboard.Proofs.Picture.Placement
import Draftboard.Proofs.Picture.VectorList

/-!
# Draftboard.Proofs.Picture.Length

The radius that a number with a unit gives.

* The number is multiplied by the factor of the unit, and then scaled with the picture
  (`read_circleText`).
* The factor says how many of the units make a centimetre, and not how many centimetres make one
  (`factor_counts`). So a number of a small unit gives a larger circle than the same number of a large
  one, and ten times a number in centimetres is as much as the number in millimetres
  (`circle_of_units_in_centimeter`).
-/

namespace Draftboard

open Text

namespace Picture

open Exact

/-! ### Circles -/

/-- A number without letters that is not below zero, as it stands before a unit. -/
structure IsLength (number : List Char) (v : Float) : Prop where
  read?_eq : Literal.read? number = some v
  no_letter : ∀ c ∈ number, c.isAlpha = false
  not_lt : ¬ v < 0

theorem isLength_of_any {number : List Char} {v : Float} (hread : Literal.read? number = some v)
    (hletter : number.any Char.isAlpha = false) (hsign : ¬ v < 0) : IsLength number v :=
  ⟨hread, fun _ hc => eq_false_of_any hletter hc, hsign⟩

/-- The body of a circle around the point of two literals, with a number and a unit for the radius. -/
def circleBody (center : List Char × List Char) (number : List Char) (unit : String) : List Char :=
  pairVector center ++ [' '] ++ circleMarker ++ '(' :: (number ++ ' ' :: unit.toList) ++ [')']

def circleText (center : List Char × List Char) (number : List Char) (unit : String) : List Char :=
  "\\draw ".toList ++ circleBody center number unit ++ [';']

/-- The circle of a radius that is not scaled yet. -/
def placedCircle (placement : Placement) (center : List Char × List Char) (radius : Float) :
    Shape Float :=
  { geometry := .circleOf (placement.apply (pairPoint center)) (radius * placement.scale) }

/-- The characters of bodies of circles. -/
def circleCharacters : List Char := pathCharacters ++ "bcdeilmnprtx ".toList

theorem unit_subset : ∀ unit ∈ units, unit.1.toList ⊆ circleCharacters := by decide

theorem unitFactor_unit : ∀ unit ∈ units, unitFactor unit.1.toList = .ok unit.2 := by decide +kernel

theorem all_head?_unit : ∀ unit ∈ units, unit.1.toList.head?.all Char.isAlpha = true := by decide

variable {center : List Char × List Char} {number : List Char} {unit : String × Float} {v : Float}

/-- A number and a unit in parentheses are the text of the product of the number and the factor. -/
theorem lengthText_unit (hnumber : IsLength number v) (hunit : unit ∈ units) :
    LengthText (v * unit.2) ('(' :: (number ++ ' ' :: unit.1.toList) ++ [')']) := by
  refine ⟨number, number ++ [' '], unit.1.toList, v, unit.2, ?_, ?_, ?_, ?_, hnumber.read?_eq,
    hnumber.not_lt, unitFactor_unit unit hunit, rfl⟩
  · rw [List.append_assoc, List.singleton_append]
    exact .refl _
  · exact (Padded.refl number).append_right (by decide)
  · intro c hc
    rcases List.mem_append.1 hc with hc | hc
    · exact hnumber.no_letter c hc
    · obtain rfl := List.mem_singleton.1 hc
      decide
  · intro c hc
    have hletter := all_head?_unit unit hunit
    rwa [hc] at hletter

theorem circleBody_subset (hx : Literal.Valid center.1) (hy : Literal.Valid center.2)
    (hnumber : IsLength number v) (hunit : unit ∈ units) :
    circleBody center number unit.1 ⊆ circleCharacters := by
  have hvector : pairPath [center] ⊆ pathCharacters :=
    pairPath_subset (by simpa using ⟨hx, hy⟩)
  have hliteral : number ⊆ pathCharacters :=
    List.Subset.trans (Literal.valid_of_read? hnumber.read?_eq).subset (List.subset_append_right _ _)
  have hpath : ∀ {s}, s ⊆ pathCharacters → s ⊆ circleCharacters := fun hs =>
    List.Subset.trans hs (List.subset_append_left _ _)
  have hlength : '(' :: (number ++ ' ' :: unit.1.toList) ⊆ circleCharacters :=
    List.cons_subset.2 ⟨by decide, List.append_subset.2
      ⟨hpath hliteral, List.cons_subset.2 ⟨by decide, unit_subset unit hunit⟩⟩⟩
  unfold circleBody
  simp only [List.append_subset]
  exact ⟨⟨⟨⟨hpath hvector, by decide⟩, by decide⟩, hlength⟩, by decide⟩

/-- The body of a circle draws the circle of the product. -/
theorem bodyText_circleBody (hx : Literal.Valid center.1) (hy : Literal.Valid center.2)
    (hnumber : IsLength number v) (hunit : unit ∈ units) (style : Style) :
    BodyText Anything style (circleBody center number unit.1)
      ⟨.circle (pairPoint center) (v * unit.2),
        { style with frontArrow := false, backArrow := false, thickness := default }⟩ := by
  have hcenter := vectorLiteral_pair hx hy
  have hmarker : 'c' ∉ pairVector center ++ [' '] := by
    intro hc
    rcases List.mem_append.1 hc with hc | hc
    · exact hcenter.not_mem (by decide) (by decide) hc
    · exact absurd hc (by decide)
  have hnode : ¬ nodeMarker <:+: circleBody center number unit.1 := fun h =>
    absurd (circleBody_subset hx hy hnumber hunit (h.subset (by decide : 'o' ∈ nodeMarker))) (by decide)
  have hfirst : FirstAt circleMarker ([] ++ pairVector center ++ [' '])
      ('(' :: (number ++ ' ' :: unit.1.toList) ++ [')']) (circleBody center number unit.1) := by
    have hcut := cutAt_append hmarker (p := "ircle".toList)
      ('(' :: (number ++ ' ' :: unit.1.toList) ++ [')'])
    rw [← List.append_assoc] at hcut
    exact cutAt_eq_some_iff.1 hcut
  exact .circle hfirst hcenter (lengthText_unit hnumber hunit) List.not_mem_nil hnode
    fun _ _ => trivial

/-- A circle is read with the product of its number and the factor of its unit, scaled. -/
theorem read_circleText (hx : Literal.Valid center.1) (hy : Literal.Valid center.2)
    (hnumber : IsLength number v) (hunit : unit ∈ units) (placement : Placement) :
    read placement (circleText center number unit.1) =
      .ok [placedCircle placement center (v * unit.2)] := by
  have htext : circleText center number unit.1 =
      command {} .circle ++ ' ' :: circleBody center number unit.1 ++ [';'] := rfl
  rw [htext, read_command ?_
    (not_mem_of_any (circleBody_subset hx hy hnumber hunit) (by decide))
    (bodyText_circleBody hx hy hnumber hunit _)]
  · rfl
  · exact ⟨_, rfl⟩

/-! ### Factors -/

/-- The factors of the units, as decimals. -/
def unitDecimals : List (String × Decimal) :=
  [("pt", ⟨284528, -4⟩), ("mm", ⟨10, 0⟩), ("cm", ⟨1, 0⟩), ("ex", ⟨43, -1⟩), ("em", ⟨237, -2⟩),
    ("bp", ⟨283465, -4⟩), ("dd", ⟨266, -1⟩), ("pc", ⟨2371, -3⟩), ("in", ⟨3927, -4⟩)]

theorem units_eq : units = unitDecimals.map fun entry => (entry.1, entry.2.toFloat) := by
  decide +kernel

theorem thirty_lt_overflow : 30 < overflow := by
  have hone : (1 : ℝ) ≤ 2 ^ (970 : ℤ) := one_le_zpow₀ one_le_two (by norm_num)
  rw [overflow]
  generalize (2 : ℝ) ^ (970 : ℤ) = power at hone ⊢
  linarith

variable {name : String} {d : Decimal}

theorem mem_units (h : (name, d) ∈ unitDecimals) : (name, d.toFloat) ∈ units := by
  rw [units_eq]
  exact List.mem_map.2 ⟨(name, d), h, rfl⟩

theorem decimal_bounds : ∀ entry ∈ unitDecimals, -2048 ≤ entry.2.exponent ∧
    entry.2.exponent ≤ 2048 ∧ entry.2.digits * (10 : ℝ) ^ entry.2.exponent ≤ 30 := by
  intro entry hentry
  simp only [unitDecimals, List.mem_cons, List.not_mem_nil, or_false] at hentry
  rcases hentry with rfl | rfl | rfl | rfl | rfl | rfl | rfl | rfl | rfl <;> norm_num

theorem rounds_factor (h : (name, d) ∈ unitDecimals) :
    Rounds (d.digits * (10 : ℝ) ^ d.exponent) d.toFloat := by
  obtain ⟨hlower, hupper, hsize⟩ := decimal_bounds _ h
  exact rounds_toFloat hlower hupper (hsize.trans_lt thirty_lt_overflow)

/-- A factor is as good as its decimal. -/
theorem factor_error (h : (name, d) ∈ unitDecimals) :
    |real d.toFloat - d.digits * (10 : ℝ) ^ d.exponent| ≤ 1 / 10 ^ 12 := by
  obtain ⟨-, -, hsize⟩ := decimal_bounds _ h
  have hnonneg : 0 ≤ d.digits * (10 : ℝ) ^ d.exponent := by positivity
  have hunit : (2 : ℝ) ^ (-1075 : ℤ) ≤ 2 ^ (-60 : ℤ) := zpow_le_zpow_right₀ one_le_two (by norm_num)
  calc |real d.toFloat - d.digits * (10 : ℝ) ^ d.exponent|
      ≤ |d.digits * (10 : ℝ) ^ d.exponent| / 2 ^ 53 + 2 ^ (-1075 : ℤ) := (rounds_factor h).error
    _ ≤ 30 / 2 ^ 53 + 2 ^ (-60 : ℤ) := by
        rw [abs_of_nonneg hnonneg]
        gcongr
    _ ≤ 1 / 10 ^ 12 := by norm_num

/-- The product of a number and a factor is as good as that with the decimal. -/
theorem product_error {x : Float} (h : (name, d) ∈ unitDecimals) (hx : x.isFinite = true)
    (hnonneg : 0 ≤ real x) (hlimit : (d.digits * (10 : ℝ) ^ d.exponent + 1 / 10) * real x < overflow) :
    |real (x * d.toFloat) - real x * (d.digits * (10 : ℝ) ^ d.exponent)| ≤
      real x / 10 ^ 11 + 2 ^ (-1075 : ℤ) := by
  obtain ⟨-, -, hsize⟩ := decimal_bounds _ h
  have herror := factor_error h
  have hfinite := (rounds_factor h).isFinite
  have hq : 0 ≤ d.digits * (10 : ℝ) ^ d.exponent := by positivity
  generalize d.digits * (10 : ℝ) ^ d.exponent = q at hlimit hsize herror hq ⊢
  have hproduct : |real x * real d.toFloat - real x * q| ≤ real x * (1 / 10 ^ 12) := by
    rw [← mul_sub, abs_mul, abs_of_nonneg hnonneg]
    exact mul_le_mul_of_nonneg_left herror hnonneg
  obtain ⟨hlower, hupper⟩ := abs_le.1 hproduct
  have hroom : q * real x ≤ 30 * real x := mul_le_mul_of_nonneg_right hsize hnonneg
  have hzero : 0 ≤ q * real x := mul_nonneg hq hnonneg
  have hbelow : |real x * real d.toFloat| < overflow := by
    rw [abs_lt]
    constructor <;> linarith
  have hrounds := rounds_mul hx hfinite hbelow
  have habs : |real x * real d.toFloat| ≤ real x * 31 := by
    rw [abs_le]
    constructor <;> linarith
  calc |real (x * d.toFloat) - real x * q|
      ≤ |real (x * d.toFloat) - real x * real d.toFloat| + |real x * real d.toFloat - real x * q| :=
        abs_sub_le _ _ _
    _ ≤ (real x * 31 / 2 ^ 53 + 2 ^ (-1075 : ℤ)) + real x * (1 / 10 ^ 12) := by
        gcongr
        exact hrounds.error.trans (by gcongr)
    _ ≤ real x / 10 ^ 11 + 2 ^ (-1075 : ℤ) := by linarith

/-- The lengths of the units that do not depend on a font, as fractions of centimetres: an inch is 2.54
centimetres, 72 big points or 72.27 points, a pica is 12 points, and 1157 didot points are 1238 points. -/
def centimeters : List (String × ℕ × ℕ) :=
  [("pt", 254, 7227), ("mm", 1, 10), ("cm", 1, 1), ("bp", 254, 7200), ("dd", 1238 * 254, 1157 * 7227),
    ("pc", 12 * 254, 7227), ("in", 254, 100)]

/-- The factor of a unit is the number of the units in a centimetre, up to three thousandths. -/
theorem factor_counts : ∀ entry ∈ centimeters, ∃ unit ∈ units, unit.1 = entry.1 ∧
    |real unit.2 * (entry.2.1 / entry.2.2) - 1| ≤ 3 / 1000 := by
  have hdecimal : ∀ entry ∈ centimeters, ∃ d, (entry.1, d) ∈ unitDecimals ∧
      |d.digits * (10 : ℝ) ^ d.exponent * (entry.2.1 / entry.2.2) - 1| ≤ 26 / 10000 ∧
      (entry.2.1 / entry.2.2 : ℝ) ≤ 3 := by
    intro entry hentry
    simp only [centimeters, List.mem_cons, List.not_mem_nil, or_false] at hentry
    rcases hentry with rfl | rfl | rfl | rfl | rfl | rfl | rfl
    · exact ⟨⟨284528, -4⟩, by simp [unitDecimals], by norm_num [abs_le], by norm_num⟩
    · exact ⟨⟨10, 0⟩, by simp [unitDecimals], by norm_num [abs_le], by norm_num⟩
    · exact ⟨⟨1, 0⟩, by simp [unitDecimals], by norm_num [abs_le], by norm_num⟩
    · exact ⟨⟨283465, -4⟩, by simp [unitDecimals], by norm_num [abs_le], by norm_num⟩
    · exact ⟨⟨266, -1⟩, by simp [unitDecimals], by norm_num [abs_le], by norm_num⟩
    · exact ⟨⟨2371, -3⟩, by simp [unitDecimals], by norm_num [abs_le], by norm_num⟩
    · exact ⟨⟨3927, -4⟩, by simp [unitDecimals], by norm_num [abs_le], by norm_num⟩
  intro entry hentry
  obtain ⟨d, hd, hcount, hsize⟩ := hdecimal entry hentry
  refine ⟨(entry.1, d.toFloat), mem_units hd, rfl, ?_⟩
  have herror := factor_error hd
  have hnonneg : (0 : ℝ) ≤ entry.2.1 / entry.2.2 := by positivity
  generalize (entry.2.1 / entry.2.2 : ℝ) = length at hcount hsize hnonneg ⊢
  generalize d.digits * (10 : ℝ) ^ d.exponent = q at hcount herror
  calc |real d.toFloat * length - 1|
      = |(real d.toFloat - q) * length + (q * length - 1)| := by congr 1; ring
    _ ≤ |(real d.toFloat - q) * length| + |q * length - 1| := abs_add_le _ _
    _ = |real d.toFloat - q| * length + |q * length - 1| := by rw [abs_mul, abs_of_nonneg hnonneg]
    _ ≤ 1 / 10 ^ 12 * 3 + 26 / 10000 := by gcongr
    _ ≤ 3 / 1000 := by norm_num

/-! ### Two units -/

theorem IsLength.real_nonneg (h : IsLength number v) (hv : v.isFinite = true) : 0 ≤ real v := by
  have hle := real_le_of_le (by decide +kernel) hv
    (Literal.zero_le_of_read? h.no_letter h.read?_eq h.not_lt)
  rwa [real_zero] at hle

/-- Twelve times a number in picas is as much as the number in points, as exactly as the factors are. -/
theorem abs_point_sub_pica_le {w : Float} (hv : v.isFinite = true) (hnonneg : 0 ≤ real v)
    (hw : Rounds (12 * real v) w) (hlimit : 30 * real v < overflow) :
    |real (v * Decimal.toFloat ⟨284528, -4⟩) - real (w * Decimal.toFloat ⟨2371, -3⟩)| ≤
      real (v * Decimal.toFloat ⟨284528, -4⟩) / 10 ^ 4 + 2 ^ (-1070 : ℤ) := by
  have hunit : (2 : ℝ) ^ (-1070 : ℤ) = 32 * 2 ^ (-1075 : ℤ) := by
    rw [show (-1070 : ℤ) = 5 + -1075 by norm_num, zpow_add₀ two_ne_zero]
    norm_num
  have hpositive : (0 : ℝ) < 2 ^ (-1075 : ℤ) := by positivity
  have hsmall : (2 : ℝ) ^ (-1075 : ℤ) ≤ 1 / 100 := by
    calc (2 : ℝ) ^ (-1075 : ℤ) ≤ 2 ^ (-7 : ℤ) := zpow_le_zpow_right₀ one_le_two (by norm_num)
      _ ≤ 1 / 100 := by norm_num
  have hoverflow := thirty_lt_overflow
  have hwnonneg : 0 ≤ real w := by
    have hzero := hw.ge_of_ge (y := 0) (by decide +kernel) (by rw [real_zero]; linarith)
    rwa [real_zero] at hzero
  have hwerror := hw.error
  rw [abs_of_nonneg (show 0 ≤ 12 * real v by linarith), abs_le] at hwerror
  have hpoints : |real (v * Decimal.toFloat ⟨284528, -4⟩) - real v * 28.4528| ≤
      real v / 10 ^ 11 + 2 ^ (-1075 : ℤ) := by
    have herror := product_error (show ("pt", (⟨284528, -4⟩ : Decimal)) ∈ unitDecimals by
      simp [unitDecimals]) hv hnonneg (by norm_num; linarith)
    convert herror using 4
    norm_num
  have hpicas : |real (w * Decimal.toFloat ⟨2371, -3⟩) - real w * 2.371| ≤
      real w / 10 ^ 11 + 2 ^ (-1075 : ℤ) := by
    have herror := product_error (show ("pc", (⟨2371, -3⟩ : Decimal)) ∈ unitDecimals by
      simp [unitDecimals]) hw.isFinite hwnonneg (by norm_num; linarith)
    convert herror using 4
    norm_num
  rw [abs_le] at hpoints hpicas
  rw [hunit, abs_le]
  constructor <;> linarith

/-- What is nearest to less than half of a number is below the number, since zero is not farther away. -/
theorem real_lt_of_rounds {q : ℝ} {x y : Float} (h : Rounds q x) (hq : 0 ≤ q)
    (hy : 2 * q < real y) : real x < real y := by
  have hnear := h.near 0 (by decide +kernel)
  rw [real_zero, zero_sub, abs_neg, abs_of_nonneg hq] at hnear
  linarith [(abs_le.1 hnear).2]

/-- A number in inches is less than the number in centimetres. -/
theorem inch_lt (hv : v.isFinite = true) (hpos : 0 < real v) :
    v * Decimal.toFloat ⟨3927, -4⟩ < v * Decimal.toFloat ⟨1, 0⟩ := by
  have hone : Decimal.toFloat ⟨1, 0⟩ = 1 := by decide +kernel
  have hinch : |real (Decimal.toFloat ⟨3927, -4⟩) - 0.3927| ≤ 1 / 10 ^ 12 := by
    convert factor_error (show ("in", (⟨3927, -4⟩ : Decimal)) ∈ unitDecimals by simp [unitDecimals])
      using 3
    norm_num
  rw [abs_le] at hinch
  have hproduct : 0 ≤ real v * real (Decimal.toFloat ⟨3927, -4⟩) ∧
      2 * (real v * real (Decimal.toFloat ⟨3927, -4⟩)) < real v := by
    constructor <;> nlinarith
  have hbelow := abs_real_add_one_lt hv
  rw [abs_of_pos hpos] at hbelow
  have hrounds : Rounds (real v * real (Decimal.toFloat ⟨3927, -4⟩)) (v * Decimal.toFloat ⟨3927, -4⟩) :=
    rounds_mul hv (by decide +kernel) (by rw [abs_of_nonneg hproduct.1]; linarith)
  have hlt := real_lt_of_rounds hrounds hproduct.1 hproduct.2
  rw [hone, mul_one]
  by_contra hnot
  have hle := le_of_not_lt (unpack_ne_of_isFinite hrounds.isFinite) (unpack_ne_of_isFinite hv) hnot
  exact not_lt.2 (real_le_of_le hv hrounds.isFinite hle) hlt

/-- A radius is the product of its number and the factor of its unit, and a factor is the number of units in a
centimetre. So a number in millimetres gives the same circle as ten times the number in centimetres, a number in
points almost the same as twelve times the number in picas, and a number in inches a smaller one than
the number in centimetres. -/
theorem circle_of_units_in_centimeter (hx : Literal.Valid center.1) (hy : Literal.Valid center.2)
    (hnumber : IsLength number v) (placement : Placement) :
    (∀ unit ∈ units, read placement (circleText center number unit.1) =
      .ok [placedCircle placement center (v * unit.2)]) ∧
    (∀ entry ∈ centimeters, ∃ unit ∈ units, unit.1 = entry.1 ∧
      |real unit.2 * (entry.2.1 / entry.2.2) - 1| ≤ 3 / 1000) ∧
    (∀ tenfold, IsLength tenfold (v * 10) →
      read placement (circleText center number "mm") =
        read placement (circleText center tenfold "cm")) ∧
    (v.isFinite = true →
      (∀ twelvefold w, IsLength twelvefold w → Rounds (12 * real v) w → 30 * real v < overflow →
        ∃ a b, read placement (circleText center number "pt") = .ok [placedCircle placement center a] ∧
          read placement (circleText center twelvefold "pc") = .ok [placedCircle placement center b] ∧
          |real a - real b| ≤ real a / 10 ^ 4 + 2 ^ (-1070 : ℤ)) ∧
      (0 < real v →
        ∃ a b, read placement (circleText center number "in") = .ok [placedCircle placement center a] ∧
          read placement (circleText center number "cm") = .ok [placedCircle placement center b] ∧
          a < b)) := by
  have hread : ∀ {s : List Char} {u : Float} {name : String} {d : Decimal}, IsLength s u →
      (name, d) ∈ unitDecimals → read placement (circleText center s name) =
        .ok [placedCircle placement center (u * d.toFloat)] := fun hs hd =>
    read_circleText hx hy hs (mem_units hd) placement
  refine ⟨fun unit hunit => read_circleText hx hy hnumber hunit placement, factor_counts,
    fun tenfold htenfold => ?_, fun hv => ⟨fun twelvefold w hw hrounds hlimit => ?_, fun hpos => ?_⟩⟩
  · have hten : Decimal.toFloat ⟨10, 0⟩ = 10 := by decide +kernel
    have hone : Decimal.toFloat ⟨1, 0⟩ = 1 := by decide +kernel
    rw [hread hnumber (d := ⟨10, 0⟩) (by simp [unitDecimals]),
      hread htenfold (d := ⟨1, 0⟩) (by simp [unitDecimals]), hten, hone, mul_one]
  · exact ⟨_, _, hread hnumber (by simp [unitDecimals]), hread hw (by simp [unitDecimals]),
      abs_point_sub_pica_le hv (hnumber.real_nonneg hv) hrounds hlimit⟩
  · exact ⟨_, _, hread hnumber (by simp [unitDecimals]), hread hnumber (by simp [unitDecimals]),
      inch_lt hv hpos⟩

/-- One half in five units, on a picture that is scaled and turned. -/
theorem circle_of_half_units :
    let center := ("1".toList, "-2.5".toList)
    let half := "0.5".toList
    let placement : Placement := ⟨2, 90⟩
    Literal.Valid center.1 ∧ Literal.Valid center.2 ∧ IsLength half (1 / 2) ∧
      read placement (circleText center half "mm") =
        read placement (circleText center "5".toList "cm") ∧
      (∃ a b, read placement (circleText center half "pt") = .ok [placedCircle placement center a] ∧
        read placement (circleText center "6".toList "pc") = .ok [placedCircle placement center b] ∧
        |real a - real b| ≤ real a / 10 ^ 4 + 2 ^ (-1070 : ℤ)) ∧
      ∃ a b, read placement (circleText center half "in") = .ok [placedCircle placement center a] ∧
        read placement (circleText center half "cm") = .ok [placedCircle placement center b] ∧
        a < b := by
  intro center half placement
  have hx : Literal.Valid center.1 := by decide +kernel
  have hy : Literal.Valid center.2 := by decide +kernel
  have hhalf : IsLength half (1 / 2) :=
    isLength_of_any (by decide +kernel) (by decide) (by decide +kernel)
  have hfive : IsLength "5".toList (1 / 2 * 10) :=
    isLength_of_any (by decide +kernel) (by decide) (by decide +kernel)
  have hsix : IsLength "6".toList 6 :=
    isLength_of_any (by decide +kernel) (by decide) (by decide +kernel)
  have hreal : real (1 / 2) = 1 / 2 := by
    have hunpack : unpack (1 / 2) = .finite .positive (2 ^ 52) (-53) (by decide) := rfl
    rw [real, hunpack, realOf_finite]
    norm_num [signed]
  have hrounds : Rounds (12 * real (1 / 2)) 6 := by
    have hunpack : unpack 6 = .finite .positive (6 * 2 ^ 50) (-50) (by decide) := rfl
    refine .of_real_eq (by decide +kernel) ?_
    rw [hreal, real, hunpack, realOf_finite]
    norm_num [signed]
  have hlimit : 30 * real (1 / 2) < overflow := by linarith [thirty_lt_overflow]
  obtain ⟨-, -, htenfold, hfinite⟩ := circle_of_units_in_centimeter hx hy hhalf placement
  obtain ⟨htwelvefold, hsmaller⟩ := hfinite (by decide +kernel)
  exact ⟨hx, hy, hhalf, htenfold _ hfive, htwelvefold _ 6 hsix hrounds hlimit,
    hsmaller (by rw [hreal]; norm_num)⟩

/-- The radii of the circles of a picture. -/
def radii (text : List Char) : Except ReadError (List (Option Float)) :=
  (read .identity text).map fun shapes => shapes.map fun shape => shape.geometry.radius?

/-- Ten millimetres are read as a hundred centimetres, twelve points as more than a hundred picas, and an inch as
less than a centimetre. -/
theorem lengths_inverted :
    let origin := ("0".toList, "0".toList)
    (∃ a b, radii (circleText origin "10".toList "mm") = .ok [some a] ∧
      radii (circleText origin "1".toList "cm") = .ok [some b] ∧ 100 * b ≤ a) ∧
    (∃ a b, radii (circleText origin "12".toList "pt") = .ok [some a] ∧
      radii (circleText origin "1".toList "pc") = .ok [some b] ∧ 100 * b < a) ∧
    ∃ a b, radii (circleText origin "1".toList "in") = .ok [some a] ∧
      radii (circleText origin "1".toList "cm") = .ok [some b] ∧ a < b := by
  intro origin
  exact ⟨⟨100, 1, by decide +kernel, by decide +kernel, by decide +kernel⟩,
    ⟨341.4336, 2.371, by decide +kernel, by decide +kernel, by decide +kernel⟩,
    ⟨0.3927, 1, by decide +kernel, by decide +kernel, by decide +kernel⟩⟩

end Picture

end Draftboard
