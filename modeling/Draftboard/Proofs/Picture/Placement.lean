import Draftboard.Proofs.Number.Order
import Draftboard.Proofs.Picture.Reread

/-!
# Draftboard.Proofs.Picture.Placement

Placing a picture does not change how it is read.

* A radius is spelled without letters before its unit, so it is the number of a decimal, with a sign
  or without one; what is below zero is refused, and the units are positive. So a circle is read with a
  radius that is at least zero (`Statement.zero_le_radius`).
* A figure is placed point by point, each of them scaled and turned once (`Figure.PlacedAs`). Its
  kind, its text and its number of vertices do not depend on the placement (`Figure.PlacedAs.outline`).
* The readers put each point in place when they come to it, and repeat a placed one for `cycle`. That this
  is the figure in its place is `Placement.readStatement_eq`, and `read_eq` for a whole picture.
* `read_placed` puts these together: a text has one fault or one list of statements, whatever the
  placement is.
-/

namespace Draftboard

open Text

/-! ### Radii -/

namespace Literal

theorem toLower_of_not_isAlpha {c : Char} (h : c.isAlpha = false) : c.toLower = c := by
  unfold Char.toLower
  split
  · rename_i hupper
    have hletter : c.isAlpha = true := Bool.or_eq_true_iff.2 (.inl (decide_eq_true hupper))
    rw [h] at hletter
    cases hletter
  · rfl

/-- A text without letters is no word. -/
theorem sameIgnoringCase_of_no_letter {s : List Char} (hs : ∀ c ∈ s, c.isAlpha = false)
    (word : List Char) (hword : (word.map Char.toLower).any Char.isAlpha = true) :
    sameIgnoringCase s word = false := by
  have hlower : s.map Char.toLower = s :=
    (List.map_congr_left fun c hc => toLower_of_not_isAlpha (hs c hc)).trans (List.map_id _)
  refine Bool.eq_false_iff.2 fun h => ?_
  rw [← eq_of_beq h, hlower] at hword
  obtain ⟨c, hc, hletter⟩ := List.any_eq_true.1 hword
  rw [hs c hc] at hletter
  cases hletter

/-- A number that is spelled without letters is that of a decimal. -/
theorem exists_of_readMagnitude? {s : List Char} {x : Float} (hs : ∀ c ∈ s, c.isAlpha = false)
    (h : readMagnitude? s = some x) : ∃ d : Decimal, x = d.toFloat := by
  have hword := sameIgnoringCase_of_no_letter hs
  rw [readMagnitude?, hword _ (by decide), hword _ (by decide), hword _ (by decide)] at h
  obtain ⟨d, -, rfl⟩ := Option.map_eq_some_iff.1 h
  exact ⟨d, rfl⟩

/-- A number that is spelled without letters is at least zero, or below it. -/
theorem zero_le_of_read? {s : List Char} {x : Float} (hs : ∀ c ∈ s, c.isAlpha = false)
    (h : read? s = some x) (hx : ¬ x < 0) : 0 ≤ x := by
  have hrest : ∀ c ∈ (takeSign s).2, c.isAlpha = false := by
    unfold takeSign
    split
    · exact fun c hc => hs c (List.mem_cons_of_mem _ hc)
    · exact fun c hc => hs c (List.mem_cons_of_mem _ hc)
    · exact hs
  change (readMagnitude? (takeSign s).2).map (fun v => if (takeSign s).1 then -v else v) = _ at h
  obtain ⟨y, hy, rfl⟩ := Option.map_eq_some_iff.1 h
  obtain ⟨d, rfl⟩ := exists_of_readMagnitude? hrest hy
  generalize (takeSign s).1 = negative at hx ⊢
  cases negative with
  | true => exact Exact.zero_le_neg (Exact.zero_le_toFloat d) hx
  | false => exact Exact.zero_le_toFloat d

end Literal

namespace Picture

/-- Every unit of length is a positive number. -/
theorem factor_pos : ∀ unit ∈ units, 0 < unit.2 ∧ unit.2.isFinite = true := by decide +kernel

theorem one_pos : 0 < (1 : Float) ∧ (1 : Float).isFinite = true := by decide +kernel

theorem unitFactor_pos {text : List Char} {factor : Float} (h : unitFactor text = .ok factor) :
    0 < factor ∧ factor.isFinite = true := by
  unfold unitFactor at h
  dsimp only at h
  split at h
  · exact Except.ok.inj h ▸ one_pos
  · generalize hfound : units.find? _ = found at h
    cases found with
    | none => cases h
    | some unit => exact Except.ok.inj h ▸ factor_pos unit (List.mem_of_find?_eq_some hfound)

theorem zero_le_of_readRadius {text : List Char} {radius : Float}
    (h : readRadius text = .ok radius) : 0 ≤ radius := by
  unfold readRadius at h
  split at h
  · cases h
  · rename_i inner _
    dsimp only at h
    split at h
    · cases h
    · rename_i value hvalue
      split at h
      · cases h
      · rename_i hnegative
        split at h
        · rename_i factor hfactor
          obtain rfl := Except.ok.inj h
          obtain ⟨hpos, hfinite⟩ := unitFactor_pos hfactor
          refine Exact.zero_le_mul (Literal.zero_le_of_read? (fun c hc => ?_) hvalue hnegative) hpos
            hfinite
          -- The number stands before the first letter.
          simpa using List.all_eq_true.1 List.all_takeWhile c ((trim_isInfix _).subset hc)
        · cases h

theorem zero_le_of_readCircle {body : List Char} {style : Style} {center : Point Float}
    {radius : Float} {style' : Style}
    (h : readCircle body style = .ok ⟨.circle center radius, style'⟩) : 0 ≤ radius := by
  unfold readCircle at h
  split at h
  · cases h
  · split at h
    · cases h
    · split at h
      · cases h
      · rename_i hradius
        obtain ⟨-, rfl⟩ := Figure.circle.inj (Statement.mk.inj (Except.ok.inj h)).1
        exact zero_le_of_readRadius hradius

/-- A circle is read with a radius that is at least zero. -/
theorem Statement.zero_le_radius {t : List Char} {center : Point Float} {radius : Float}
    {style : Style} (h : Statement.read t = .ok ⟨.circle center radius, style⟩) : 0 ≤ radius := by
  obtain ⟨body, style, fills, -, -, hlabel | hcircle | hpath⟩ := cases_of_read h
  · obtain ⟨anchor, text, hst, -⟩ := braces_of_readLabel hlabel
    cases hst
  · exact zero_le_of_readCircle hcircle
  · rcases of_readPath hpath with ⟨start, stop, hst⟩ | ⟨vertices, -, hst⟩ <;> cases hst

/-! ### Placed figures -/

/-- Where a point of the text lies: scaled first, and then turned clockwise. -/
def Placement.Puts (placement : Placement) (p q : Point Float) : Prop :=
  q = (p.scale placement.scale).rotateClockwise placement.rotation

/-- A geometry is a figure, each point of which is put in its place. The rim of a circle lies to the
right of its placed centre, at its scaled radius. -/
inductive Figure.PlacedAs (placement : Placement) : Figure → Geometry Float → Prop
  | line {a b a' b' : Point Float} (ha : placement.Puts a a') (hb : placement.Puts b b') :
    PlacedAs placement (.line a b) (.line a' b')
  | path {vertices vertices' : List (Point Float)}
      (h : List.Forall₂ placement.Puts vertices vertices') :
    PlacedAs placement (.path vertices) (.polyline vertices')
  | circle {center center' rim : Point Float} {radius : Float}
      (hcenter : placement.Puts center center')
      (hrim : rim = center' + ⟨radius * placement.scale, 0⟩) :
    PlacedAs placement (.circle center radius) (.circle center' rim)
  | label {anchor anchor' : Point Float} {text : List Char} (ha : placement.Puts anchor anchor') :
    PlacedAs placement (.label anchor text) (.label anchor' (String.ofList text))

theorem Figure.placedAs_place (placement : Placement) (figure : Figure) :
    figure.PlacedAs placement (figure.place placement) := by
  cases figure with
  | line a b => exact .line rfl rfl
  | path vertices =>
    refine .path ?_
    rw [List.forall₂_map_right_iff, List.forall₂_same]
    exact fun _ _ => rfl
  | circle center radius => exact .circle rfl rfl
  | label anchor text => exact .label rfl

end Picture

/-- Two shapes that agree in everything but where they lie and how large they are. -/
structure Shape.SameOutline (s t : Shape Float) : Prop where
  kind : s.kind = t.kind
  style : s.style = t.style
  text : s.geometry.text? = t.geometry.text?
  vertices : s.geometry.vertices.length = t.geometry.vertices.length

/-- Kind, text and number of vertices are those of the figure. -/
theorem Picture.Figure.PlacedAs.outline {figure : Figure} {first second : Placement}
    {g g' : Geometry Float} (h : figure.PlacedAs first g) (h' : figure.PlacedAs second g') :
    g.kind = g'.kind ∧ g.text? = g'.text? ∧ g.vertices.length = g'.vertices.length := by
  cases h with
  | line => cases h'; exact ⟨rfl, rfl, rfl⟩
  | circle => cases h'; exact ⟨rfl, rfl, rfl⟩
  | label => cases h'; exact ⟨rfl, rfl, rfl⟩
  | path hpath =>
    cases h' with
    | path hpath' => exact ⟨rfl, rfl, hpath.length_eq.symm.trans hpath'.length_eq⟩

theorem Picture.Statement.sameOutline_place (st : Statement) (first second : Placement) :
    (st.place first).SameOutline (st.place second) := by
  obtain ⟨hkind, htext, hvertices⟩ :=
    (st.figure.placedAs_place first).outline (st.figure.placedAs_place second)
  exact ⟨hkind, (rfl : st.style = st.style), htext, hvertices⟩

namespace Picture

/-! ### Pictures under all placements -/

/-- The placement of a picture decides neither whether it can be read nor what is read: a text has
one fault under all placements, or one list of statements, each of which is placed point by point. -/
theorem read_placed (text : List Char) :
    (∃ e, ∀ placement, read placement text = .error e) ∨
    ∃ all : List Statement,
      (∀ center radius style, ⟨.circle center radius, style⟩ ∈ all → 0 ≤ radius) ∧
      (∀ placement, ∃ shapes, read placement text = .ok shapes ∧
        List.Forall₂ (fun st shape => shape.style = st.style ∧
          st.figure.PlacedAs placement shape.geometry) all shapes) ∧
      ∀ first second, ∃ shapes shapes', read first text = .ok shapes ∧
        read second text = .ok shapes' ∧ List.Forall₂ Shape.SameOutline shapes shapes' := by
  cases hall : readStatements text with
  | error e => exact .inl ⟨e, fun placement => by rw [read_eq, hall]; rfl⟩
  | ok all =>
    have hread : ∀ placement, read placement text = .ok (all.map (Statement.place placement)) := by
      intro placement
      rw [read_eq, hall]
      rfl
    refine .inr ⟨all, fun center radius style hmem => ?_, fun placement => ?_,
      fun first second => ?_⟩
    · obtain ⟨t, -, ht⟩ := readEach_forall hall _ hmem
      exact Statement.zero_le_radius ht
    · refine ⟨_, hread placement, ?_⟩
      rw [List.forall₂_map_right_iff, List.forall₂_same]
      exact fun st _ => ⟨rfl, st.figure.placedAs_place placement⟩
    · refine ⟨_, _, hread first, hread second, ?_⟩
      rw [List.forall₂_map_left_iff, List.forall₂_map_right_iff, List.forall₂_same]
      exact fun st _ => st.sameOutline_place first second

end Picture

end Draftboard
