import Draftboard.Proofs.Geometry.Rim
import Draftboard.Proofs.Picture.RoundTrip
import Draftboard.Proofs.Picture.Spelled

/-!
# Draftboard.Proofs.Picture.Settled

Shapes whose text is the text of what is read from it.

* A finite coordinate is written with four decimals and read as the number next to them, which has
  the same four decimals (`point_normal`).
* The radius of a circle is measured again from where its rim is put. What that costs is far less
  than a hundredth as long as the circle lies within `reach` (`fixedPoint_remeasured`).
* A tint is written as a whole percentage, and of these each one but a hundred and the fifty of
  black is read as a tint that is written the same (`colorItems_normal`).
* `writeShape_normal` puts these together for a shape that is `Settled`, which can be decided.
-/

namespace Draftboard

open Text Picture

/-! ### Points -/

namespace Point

/-- Both coordinates are finite. -/
def IsFinite (p : Point Float) : Prop := p.x.isFinite = true ∧ p.y.isFinite = true

instance (p : Point Float) : Decidable p.IsFinite := inferInstanceAs (Decidable (_ ∧ _))

/-- A point that is read as a point with the same text. Where only one coordinate is not finite, the
other does not come back. -/
def Settled (p : Point Float) : Prop := p.IsFinite ∨ p.x.isNaN = true ∧ p.y.isNaN = true

instance (p : Point Float) : Decidable p.Settled := inferInstanceAs (Decidable (_ ∨ _))

end Point

namespace Picture

open Exact

/-- Where nothing is moved a point is scaled by one and turned by no angle. -/
theorem apply_identity (p : Point Float) :
    Placement.identity.apply p = ⟨p.x - p.y * (-0), p.x * (-0) + p.y⟩ := by
  have hsin : Exact.sin (Scalar.radians (-(0 : Float))) = -0 := by decide +kernel
  have hcos : Exact.cos (Scalar.radians (-(0 : Float))) = 1 := by decide +kernel
  show Point.turn ⟨p.x * 1, p.y * 1⟩ (Exact.sin (Scalar.radians (-(0 : Float))))
    (Exact.cos (Scalar.radians (-(0 : Float)))) = _
  rw [hsin, hcos, Exact.mul_one, Exact.mul_one]
  show Point.mk (p.x * 1 - p.y * (-0)) (p.x * (-0) + p.y * 1) = _
  rw [Exact.mul_one, Exact.mul_one]

/-- Where nothing is moved the coordinates stand for the same. -/
theorem real_apply_identity {p : Point Float} (h : p.IsFinite) :
    (Placement.identity.apply p).IsFinite ∧
      real (Placement.identity.apply p).x = real p.x ∧
      real (Placement.identity.apply p).y = real p.y := by
  obtain ⟨hx, hy⟩ := h
  -- The products are zeros, and adding a zero changes what is added at most in its sign.
  have hzero : ∀ z : Float, z.isFinite = true → (z * (-0)).isFinite = true ∧ real (z * (-0)) = 0 := by
    intro z hz
    have hneg : real (-0) = 0 := real_pack_zero .negative
    have hpos : real 0 = 0 := real_pack_zero .positive
    obtain ⟨hfinite, hreal⟩ := real_mul_eq (y := -0) (z := 0) hz rfl rfl (by rw [hneg, mul_zero, hpos])
    exact ⟨hfinite, hreal.trans hpos⟩
  obtain ⟨hxf, hxr⟩ := hzero p.x hx
  obtain ⟨hyf, hyr⟩ := hzero p.y hy
  obtain ⟨hleftf, hleft⟩ := real_add_eq hx ((isFinite_neg _).trans hyf) hx
    (by rw [real_neg, hyr, neg_zero, add_zero])
  obtain ⟨hrightf, hright⟩ := real_add_eq hxf hy hy (by rw [hxr, zero_add])
  rw [apply_identity, sub_eq]
  exact ⟨⟨hleftf, hrightf⟩, hleft, hright⟩

theorem isFinite_spelled {p : Point Float} (h : p.IsFinite) : p.spelled.IsFinite :=
  ⟨(spelled_coordinate h.1).1, (spelled_coordinate h.2).1⟩

theorem isFinite_normal {p : Point Float} (h : p.IsFinite) : p.normal.IsFinite :=
  (real_apply_identity (isFinite_spelled h)).1

theorem coordinate_of_isNaN {x : Float} (h : x.isNaN = true) : coordinate x = "NaN".toList := by
  rw [coordinate, Format.fixedPoint, if_pos h]
  rfl

/-- The text of a settled point is that of the point that is read from it. -/
theorem point_normal {p : Point Float} (h : p.Settled) : point p.normal = point p := by
  rcases h with h | ⟨hx, hy⟩
  · have hspelled := isFinite_spelled h
    obtain ⟨hnormal, hx, hy⟩ := real_apply_identity hspelled
    have hx' : coordinate p.normal.x = coordinate p.x :=
      (coordinate_eq_of_real_eq hnormal.1 hspelled.1 hx).trans (coordinate_spelled h.1)
    have hy' : coordinate p.normal.y = coordinate p.y :=
      (coordinate_eq_of_real_eq hnormal.2 hspelled.2 hy).trans (coordinate_spelled h.2)
    rw [point, point, hx', hy']
  · have hword := coordinate_of_isNaN hx
    have hword' := coordinate_of_isNaN hy
    rw [Point.normal, Point.spelled, hword, hword', point, point, hword, hword']
    decide +kernel

/-! ### Circles -/

theorem abs_real_normal_le {p : Point Float} (h : p.IsFinite) :
    |real p.normal.x| ≤ |real p.x| + 1 := by
  have hnormal : real p.normal.x = real p.spelled.x := (real_apply_identity (isFinite_spelled h)).2.1
  rw [hnormal]
  exact abs_real_spelled_le h.1

/-- A length of at most twelve digits before the point spells a number close to its decimal. -/
theorem spelled_length {x : Float} (hx : x.isFinite = true) (hsign : isNegative x = false)
    (hle : real x ≤ 10 ^ 12) :
    (Literal.value (Format.fixedPoint 2 x)).isFinite = true ∧
      |real (Literal.value (Format.fixedPoint 2 x))| ≤ 2 ^ 41 ∧
      abs (|real (Literal.value (Format.fixedPoint 2 x))| - (Decimal.atPlaces 2 x).digits / 100) ≤
        1 / 2000 := by
  rw [value_fixedPoint hx hsign (by decide)]
  have hgrid := (halfEven_atPlaces 2 x).near
  rw [abs_of_nonneg (real_nonneg hsign)] at hgrid
  have hgrid' := abs_le.1 hgrid
  generalize (Decimal.atPlaces 2 x).digits = n at hgrid'
  have hdecimal : (n : ℝ) * 10 ^ (-2 : ℤ) = n / 100 := by
    rw [zpow_neg, ← div_eq_mul_inv]
    norm_num
  have hbound : |(n : ℝ) / 100| ≤ 10 ^ 12 + 1 := by
    rw [abs_of_nonneg (by positivity)]
    linarith
  have hlimit : (n : ℝ) * 10 ^ (-2 : ℤ) < overflow := by
    rw [hdecimal]
    exact lt_overflow ((le_abs_self _).trans (hbound.trans (by norm_num)))
  have hread : Rounds (n * 10 ^ (-2 : ℤ)) (Decimal.toFloat ⟨n, -2⟩) :=
    rounds_toFloat (d := ⟨n, -2⟩) (by norm_num) (by norm_num) hlimit
  rw [hdecimal] at hread
  have herror := hread.error_le (hbound.trans (by norm_num))
  have herror' := abs_le.1 herror
  have hbound' := abs_le.1 hbound
  show (Decimal.toFloat ⟨n, -2⟩).isFinite = true ∧ |real (Decimal.toFloat ⟨n, -2⟩)| ≤ 2 ^ 41 ∧
    abs (|real (Decimal.toFloat ⟨n, -2⟩)| - n / 100) ≤ 1 / 2000
  rw [abs_of_nonneg (real_nonneg (isNegative_toFloat ⟨n, -2⟩))]
  exact ⟨hread.isFinite, by linarith, herror⟩

/-- The radius of the circle that is read from the text of a circle. -/
def remeasured (center rim : Point Float) : Float :=
  center.normal.distance
    (center.normal + ⟨Literal.value (Format.fixedPoint 2 (center.distance rim)), Scalar.zero⟩)

/-- A radius is measured again with the same two decimals, as long as numbers are not too far apart
for them. -/
theorem fixedPoint_remeasured {center rim : Point Float} (hc : center.IsFinite)
    (hcx : |real center.x| ≤ 10 ^ 12) (hr : (center.distance rim).isFinite = true)
    (hle : real (center.distance rim) ≤ 10 ^ 12) :
    Format.fixedPoint 2 (remeasured center rim) = Format.fixedPoint 2 (center.distance rim) := by
  unfold remeasured
  have hsign := isNegative_distance center rim
  obtain ⟨hread, hbound, hdecimal⟩ := spelled_length hr hsign hle
  generalize Literal.value (Format.fixedPoint 2 (center.distance rim)) = r at hread hbound hdecimal
  have hnormal := isFinite_normal hc
  obtain ⟨hfinite, hradius⟩ := Point.distance_right hnormal.1 hnormal.2 hread
    ((abs_real_normal_le hc).trans (by linarith)) hbound
  refine Format.fixedPoint_congr hfinite hr ((isNegative_distance _ _).trans hsign.symm) ?_
  refine (halfEven_atPlaces 2 _).unique (.of_lt ?_)
  rw [abs_of_nonneg (real_nonneg (isNegative_distance _ _)), abs_lt]
  have hdecimal' := abs_le.1 hdecimal
  have hradius' := abs_le.1 hradius
  constructor <;> linarith

end Picture

/-! ### Colours -/

/-- A colour whose modifier is read as a colour with the same modifier. -/
structure Color.Settled (c : Color) : Prop where
  /-- A tint below one is not rounded up to a full one. -/
  notFull : c.tint < 1 → percentage c.tint < 100
  /-- The tint of a black is rounded to a half only where it is one. -/
  half : c.tint < 1 → c.ink = .black → percentage c.tint = 50 → c.isHalfBlack = true
  /-- Full black has a tint. -/
  full : ¬ c.tint < 1 → c.ink = .black → 1 ≤ c.tint

instance (c : Color) : Decidable c.Settled :=
  decidable_of_iff
    ((c.tint < 1 → percentage c.tint < 100) ∧
      (c.tint < 1 → c.ink = .black → percentage c.tint = 50 → c.isHalfBlack = true) ∧
      (¬ c.tint < 1 → c.ink = .black → 1 ≤ c.tint))
    ⟨fun ⟨a, b, d⟩ => ⟨a, b, d⟩, fun ⟨a, b, d⟩ => ⟨a, b, d⟩⟩

namespace Picture

open Exact

/-- A tint that is not below zero has a percentage that is not. -/
theorem percentage_nonneg {t : Float} (h0 : ¬ t < 0) (h1 : t < 1) : 0 ≤ percentage t := by
  have hnonneg : isNegative t = false → 0 ≤ percentage t := fun h =>
    toInt_nonneg (isNegative_roundHalfAway (isNegative_mul h (by decide +kernel)))
  have h0' : ¬ (unpack t).lt (unpack 0) = true := fun h => h0 (decide_eq_true h)
  have h1' : (unpack t).lt (unpack 1) = true := of_decide_eq_true h1
  cases ht : unpack t with
  | notANumber => rw [ht] at h1'; exact absurd h1' Bool.false_ne_true
  | infinity s =>
    cases s with
    | positive => exact hnonneg (by rw [isNegative, ht])
    | negative => rw [ht] at h0'; exact absurd rfl h0'
  | zero s =>
    rw [eq_pack_zero ht]
    cases s <;> decide +kernel
  | finite s m e hm =>
    cases s with
    | positive => exact hnonneg (by rw [isNegative, ht])
    | negative => rw [ht] at h0'; exact absurd rfl h0'

/-- What is read of a whole percentage. -/
def readPercentage (n : Int) : Float :=
  Scalar.clamp 0 1 (Literal.value (wholeNumber n) / Scalar.ofNat 100)

theorem readPercentage_spec : ∀ n < 100, readPercentage (n : ℕ) < 1 ∧ ¬ 1 ≤ readPercentage (n : ℕ) ∧
    percentage (readPercentage (n : ℕ)) = n ∧
    (n ≠ 50 → (Color.mk .black (readPercentage (n : ℕ))).isHalfBlack = false) := by
  decide +kernel

theorem colorItems_full (ink : Ink) : colorItems ⟨ink, 1⟩ =
    if ink = .black then [] else ["color = ".toList ++ ink.name.toList] := by
  cases ink <;> decide +kernel

theorem isHalfBlack_of_ne {ink : Ink} (h : ink ≠ .black) (t : Float) :
    (Color.mk ink t).isHalfBlack = false := by
  unfold Color.isHalfBlack
  rw [beq_eq_false_iff_ne.2 h, Bool.false_and]

/-- A tint that is read of a percentage is written as that percentage, but for black at a half. -/
theorem colorItems_readPercentage {ink : Ink} {n : ℕ} (hn : n < 100)
    (hblack : ink = .black → n ≠ 50) : colorItems ⟨ink, readPercentage n⟩ =
      ["color = ".toList ++ ink.name.toList ++ '!' :: wholeNumber n] := by
  obtain ⟨hbelow, hnotFull, hpercentage, hnotHalf⟩ := readPercentage_spec n hn
  have hhalf : (Color.mk ink (readPercentage n)).isHalfBlack = false := by
    by_cases hink : ink = .black
    · subst hink
      exact hnotHalf (hblack rfl)
    · exact isHalfBlack_of_ne hink _
  have hdefault : (Color.mk ink (readPercentage n)).isDefault = false := by
    unfold Color.isDefault
    rw [decide_eq_false hnotFull, Bool.and_false]
  rw [colorItems, hhalf, hdefault, if_neg Bool.false_ne_true, if_neg Bool.false_ne_true,
    if_pos hbelow, hpercentage]

/-- The modifier of a settled colour is that of the colour that is read from it. -/
theorem colorItems_normal {c : Color} (h : c.Settled) (h0 : ¬ c.tint < 0) :
    colorItems c.normal = colorItems c := by
  obtain ⟨ink, t⟩ := c
  unfold Color.normal
  conv_rhs => unfold colorItems
  split
  · exact colorItems_full .gray
  · rename_i hhalf
    split
    · exact colorItems_full .black
    · rename_i hdefault
      split
      · rename_i hlt
        obtain ⟨n, hn⟩ := Int.eq_ofNat_of_zero_le (percentage_nonneg h0 hlt)
        have hhundred := h.notFull hlt
        have hfifty := h.half hlt
        dsimp only at hn hhundred hfifty
        rw [hn] at hhundred hfifty ⊢
        refine colorItems_readPercentage (by omega) fun hink h50 => hhalf (hfifty hink ?_)
        rw [h50]
        rfl
      · rename_i hlt
        have hink : ink ≠ .black := fun hink => hdefault (by
          unfold Color.isDefault
          rw [Bool.and_eq_true, beq_iff_eq, decide_eq_true_eq]
          exact ⟨hink, h.full hlt hink⟩)
        rw [colorItems_full, if_neg hink]

end Picture

/-! ### Shapes -/

/-- Where neighbouring numbers are still much closer than a hundredth. -/
def reach : Float := Scalar.ofNat (10 ^ 12)

theorem Exact.real_reach : real reach = 10 ^ 12 := by
  have hunpack : unpack reach = .finite .positive 8192000000000000 (-13) (by decide) := rfl
  rw [real, hunpack, realOf_finite]
  norm_num [signed]

/-- A circle with a finite centre and radius. Where it does not lie within reach, the radius has to be
measured again with the same two decimals. -/
def Point.SettledCircle (center rim : Point Float) : Prop :=
  center.IsFinite ∧ (center.distance rim).isFinite = true ∧
    (-reach ≤ center.x ∧ center.x ≤ reach ∧ center.distance rim ≤ reach ∨
      Format.fixedPoint 2 (Picture.remeasured center rim) =
        Format.fixedPoint 2 (center.distance rim))

instance (center rim : Point Float) : Decidable (center.SettledCircle rim) :=
  inferInstanceAs (Decidable (_ ∧ _ ∧ (_ ∨ _)))

/-- A geometry whose text is read as a geometry with the same text. A label may not break a line
after a carriage return. -/
def Geometry.Settled : Geometry Float → Prop
  | .line start stop => start.Settled ∧ stop.Settled
  | .circle center rim => center.SettledCircle rim
  | .polyline vertices => ∀ p ∈ vertices, p.Settled
  | .curve start controls stop => ∀ p ∈ exported start controls stop, p.Settled
  | .label anchor text => anchor.Settled ∧ ¬ ['\r', '\n'] <:+: text.toList

instance : (g : Geometry Float) → Decidable g.Settled
  | .line .. => inferInstanceAs (Decidable (_ ∧ _))
  | .circle center rim => inferInstanceAs (Decidable (center.SettledCircle rim))
  | .polyline vertices => inferInstanceAs (Decidable (∀ p ∈ vertices, p.Settled))
  | .curve start controls stop =>
    inferInstanceAs (Decidable (∀ p ∈ exported start controls stop, p.Settled))
  | .label .. => inferInstanceAs (Decidable (_ ∧ _))

/-- A shape with a settled geometry and colour. -/
structure Shape.Settled (s : Shape Float) : Prop where
  geometry : s.geometry.Settled
  color : s.style.color.Settled

instance (s : Shape Float) : Decidable s.Settled :=
  decidable_of_iff (s.geometry.Settled ∧ s.style.color.Settled)
    ⟨fun ⟨a, b⟩ => ⟨a, b⟩, fun ⟨a, b⟩ => ⟨a, b⟩⟩

namespace Picture

open Exact

theorem fixedPoint_of_settledCircle {center rim : Point Float} (h : center.SettledCircle rim) :
    Format.fixedPoint 2 (remeasured center rim) = Format.fixedPoint 2 (center.distance rim) := by
  obtain ⟨hcenter, hfinite, ⟨hleft, hright, hradius⟩ | hsame⟩ := h
  · have hreach : reach.isFinite = true := rfl
    have hleft' := real_le_of_le ((isFinite_neg reach).trans hreach) hcenter.1 hleft
    have hright' := real_le_of_le hcenter.1 hreach hright
    have hradius' := real_le_of_le hfinite hreach hradius
    rw [real_neg, real_reach] at hleft'
    rw [real_reach] at hright' hradius'
    exact fixedPoint_remeasured hcenter (abs_le.2 ⟨hleft', hright'⟩) hfinite hradius'
  · exact hsame

theorem path_normal {points : List (Point Float)} (h : ∀ p ∈ points, p.Settled) :
    path (points.map Point.normal) = path points := by
  rw [path, path, List.map_map]
  congr 1
  exact List.map_congr_left fun p hp => point_normal (h p hp)

/-- The text of a settled geometry is that of its normal form. -/
theorem body_normal {g : Geometry Float} (h : g.Settled) : body g.normal = body g := by
  cases g with
  | line start stop =>
    rw [Geometry.normal, body_line, body_line, point_normal h.1, point_normal h.2]
  | circle center rim =>
    have hdistance := fixedPoint_of_settledCircle h
    unfold remeasured at hdistance
    rw [Geometry.normal, Geometry.circleOf, body_circle, body_circle, point_normal (.inl h.1),
      hdistance]
  | polyline vertices =>
    rw [Geometry.normal, body_polyline, body_polyline, path_normal h]
  | curve start controls stop =>
    rw [body_curve, ← path_normal h]
    rfl
  | label anchor text =>
    rw [Geometry.normal, body_label, body_label, labelHead, labelHead, point_normal h.1]

theorem modifierItems_normal {style : Style}
    (h : colorItems style.color.normal = colorItems style.color) (g : Geometry Float) :
    modifierItems (style.normal g.kind) g.normal.kind = modifierItems style g.kind := by
  have hcolor : ∀ k, modifierItems { style with color := style.color.normal } k =
      modifierItems style k := by
    intro k
    unfold modifierItems
    rw [h]
  -- Of the rest of a style the items see what is left of it.
  cases g with
  | line => exact hcolor .line
  | circle => exact hcolor .circle
  | polyline => exact hcolor .polyline
  | curve => exact hcolor .polyline
  | label => exact hcolor .label

theorem command_normal (style : Style) (g : Geometry Float) :
    command (style.normal g.kind) g.normal.kind = command style g.kind := by
  have hopen : ∀ (s : Style) (k : Kind), ¬ (s.filled ∧ (k = .circle ∨ k = .polyline)) →
      command s k = "\\draw".toList := fun _ _ h => if_neg h
  cases g with
  | circle | polyline => rfl
  | line | curve | label =>
    rw [hopen _ _ (by rintro ⟨h, -⟩; cases h), hopen _ _ (by rintro ⟨-, h | h⟩ <;> cases h)]

/-- The line of a settled shape is that of its normal form. -/
theorem writeShape_normal {s : Shape Float} (h : s.Settled) (htint : ¬ s.style.color.tint < 0) :
    writeShape s.normal = writeShape s := by
  have hcommand := command_normal s.style s.geometry
  have hitems := modifierItems_normal (colorItems_normal h.color htint) s.geometry
  have hbody := body_normal h.geometry
  show command (s.style.normal s.geometry.kind) s.geometry.normal.kind ++
      modifierBlock (s.style.normal s.geometry.kind) s.geometry.normal.kind ++
      ' ' :: body s.geometry.normal ++ [';', '\n'] =
    command s.style s.geometry.kind ++ modifierBlock s.style s.geometry.kind ++
      ' ' :: body s.geometry ++ [';', '\n']
  rw [hcommand, modifierBlock, hitems, hbody]
  rfl

end Picture

end Draftboard
