import Mathlib.Data.List.Forall2
import Draftboard.Proofs.Number.Alike
import Draftboard.Proofs.Picture.Numeral

/-!
# Draftboard.Proofs.Picture.Equal

Equal shapes are written alike, to the letter.

Equal is not the same: zeros differ in their sign, circles in the place of the rim point, and all shapes
in what has been derived from them.

* Points that are alike stay so in every sum of a curve, so the polylines that equal curves are written
  as are alike, point by point (`Curve.sample_alike`).
* A coordinate is written without the sign of a zero (`coordinate_eq_of_alike`), and a radius has none
  (`isNegative_distance`).
* A tint of zero is the only one that equality takes for another, and it is written as no percent
  (`colorItems_zero`).
-/

namespace Draftboard

open List (Forall₂)
open Exact (Alike)

/-! ### Points and curves -/

namespace Point

/-- The points have coordinates that are alike. -/
def Alike (p q : Point Float) : Prop := Exact.Alike p.x q.x ∧ Exact.Alike p.y q.y

variable {p q p' q' : Point Float}

theorem Alike.refl (p : Point Float) : p.Alike p := ⟨.refl _, .refl _⟩

theorem Alike.of_beq (h : (p == q) = true) : p.Alike q := by
  obtain ⟨hx, hy⟩ := Bool.and_eq_true_iff.1 h
  exact ⟨.inr hx, .inr hy⟩

theorem Alike.add (h : p.Alike q) (h' : p'.Alike q') : (p + p').Alike (q + q') :=
  ⟨h.1.add h'.1, h.2.add h'.2⟩

theorem Alike.scale (h : p.Alike q) (factor : Float) : (p.scale factor).Alike (q.scale factor) :=
  ⟨h.1.mul_right factor, h.2.mul_right factor⟩

theorem forall₂_alike_of_beq {ps qs : List (Point Float)} (h : (ps == qs) = true) :
    Forall₂ Alike ps qs := by
  induction ps generalizing qs with
  | nil =>
    cases qs with
    | nil => exact .nil
    | cons => simp at h
  | cons p ps ih =>
    cases qs with
    | nil => simp at h
    | cons q qs =>
      rw [List.cons_beq_cons, Bool.and_eq_true_iff] at h
      exact .cons (.of_beq h.1) (ih h.2)

end Point

namespace Curve

variable {ps qs : List (Point Float)}

theorem weightedSum_alike (h : Forall₂ Point.Alike ps qs) (n : Nat) (t : Float) (i : Nat)
    {acc acc' : Point Float} (hacc : acc.Alike acc') :
    (weightedSum n t acc i ps).Alike (weightedSum n t acc' i qs) := by
  induction h generalizing i acc acc' with
  | nil => exact hacc
  | cons hp _ ih => exact ih (i + 1) (hacc.add (hp.scale (weight n i t)))

theorem evaluate_alike (h : Forall₂ Point.Alike ps qs) (t : Float) :
    (evaluate ps t).Alike (evaluate qs t) := by
  rw [evaluate, evaluate, h.length_eq]
  exact weightedSum_alike h _ t 0 (.refl _)

theorem sample_alike (h : Forall₂ Point.Alike ps qs) (steps : Nat) :
    Forall₂ Point.Alike (sample ps steps) (sample qs steps) := by
  rw [sample, sample]
  split
  · exact .cons (evaluate_alike h _) .nil
  · rw [List.forall₂_map_left_iff, List.forall₂_map_right_iff, List.forall₂_same]
    intro k _
    exact evaluate_alike h (Scalar.ratio k steps)

theorem controlPolygon_alike {start stop start' stop' : Point Float} (hstart : start.Alike start')
    (h : Forall₂ Point.Alike ps qs) (hstop : stop.Alike stop') :
    Forall₂ Point.Alike (controlPolygon start ps stop) (controlPolygon start' qs stop') :=
  .cons hstart (List.rel_append h (.cons hstop .nil))

end Curve

namespace Picture

/-! ### Numbers and points -/

open Exact (pack)
open Float.Model.UnpackedFloat (Sign)

theorem coordinate_zero (s : Sign) : coordinate (pack (.zero s)) = ['0'] := by
  cases s <;> decide +kernel

theorem coordinate_eq_of_alike {x y : Float} (h : Alike x y) : coordinate x = coordinate y := by
  obtain rfl | ⟨s, t, hx, hy⟩ := h.same_or_zeros
  · rfl
  · rw [Exact.eq_pack_zero hx, Exact.eq_pack_zero hy, coordinate_zero, coordinate_zero]

theorem point_eq_of_alike {p q : Point Float} (h : p.Alike q) : point p = point q := by
  rw [point, point, coordinate_eq_of_alike h.1, coordinate_eq_of_alike h.2]

theorem path_eq_of_alike {ps qs : List (Point Float)} (h : Forall₂ Point.Alike ps qs) :
    path ps = path qs := by
  have hmap : ps.map point = qs.map point := by
    induction h with
    | nil => rfl
    | cons hp _ ih => rw [List.map_cons, List.map_cons, point_eq_of_alike hp, ih]
  rw [path, path, hmap]

/-! ### What follows the modifiers -/

theorem body_congr {g g' : Geometry Float} (h : g.same g' = true) :
    g.kind = g'.kind ∧ body g = body g' := by
  unfold Geometry.same at h
  unfold body
  split at h
  case h_6 => cases h
  all_goals refine ⟨rfl, ?_⟩; dsimp only
  case h_1 =>
    obtain ⟨hstart, hstop⟩ := Bool.and_eq_true_iff.1 h
    rw [point_eq_of_alike (.of_beq hstart), point_eq_of_alike (.of_beq hstop)]
  -- Of the rim point no more is written than the radius.
  case h_2 =>
    obtain ⟨hcenter, hradius⟩ := Bool.and_eq_true_iff.1 h
    rw [point_eq_of_alike (.of_beq hcenter),
      Exact.eq_of_beq (isNegative_distance _ _) (isNegative_distance _ _) hradius]
  case h_3 => exact path_eq_of_alike (Point.forall₂_alike_of_beq h)
  case h_4 =>
    obtain ⟨hends, hcontrols⟩ := Bool.and_eq_true_iff.1 h
    obtain ⟨hstart, hstop⟩ := Bool.and_eq_true_iff.1 hends
    have hall := Point.forall₂_alike_of_beq hcontrols
    have hpolygon := Curve.controlPolygon_alike (.of_beq hstart) hall (.of_beq hstop)
    rw [hall.length_eq, path_eq_of_alike (Curve.sample_alike hpolygon _)]
  case h_5 =>
    obtain ⟨hanchor, htext⟩ := Bool.and_eq_true_iff.1 h
    rw [point_eq_of_alike (.of_beq hanchor), eq_of_beq htext]

/-! ### Modifiers -/

theorem colorItems_zero (ink : Ink) (s : Sign) :
    colorItems ⟨ink, pack (.zero s)⟩ = ["color = ".toList ++ ink.name.toList ++ "!0".toList] := by
  cases s <;> cases ink <;> decide +kernel

theorem colorItems_congr {c d : Color} (h : (c == d) = true) : colorItems c = colorItems d := by
  obtain ⟨ink, tint⟩ := c
  obtain ⟨ink', tint'⟩ := d
  obtain ⟨hink, htint⟩ := Bool.and_eq_true_iff.1 h
  obtain rfl : ink = ink' := eq_of_beq hink
  obtain rfl | ⟨s, t, hs, ht⟩ := Exact.Alike.same_or_zeros (.inr htint)
  · rfl
  · rw [show tint = pack (.zero s) from Exact.eq_pack_zero hs,
      show tint' = pack (.zero t) from Exact.eq_pack_zero ht, colorItems_zero, colorItems_zero]

/-- Equal styles have all fields in common but the colour, which is written the same. -/
theorem style_congr {s t : Style} (h : (s == t) = true) :
    colorItems s.color = colorItems t.color ∧ ∃ color, s = { t with color } := by
  obtain ⟨color, dashed, front, back, filled, thickness⟩ := s
  obtain ⟨color', dashed', front', back', filled', thickness'⟩ := t
  have h' : (color == color' && dashed == dashed' && front == front' && back == back' &&
    filled == filled' && thickness == thickness') = true := h
  simp only [Bool.and_eq_true, beq_iff_eq] at h'
  obtain ⟨⟨⟨⟨⟨hcolor, rfl⟩, rfl⟩, rfl⟩, rfl⟩, rfl⟩ := h'
  exact ⟨colorItems_congr hcolor, color, rfl⟩

theorem modifierBlock_congr {s t : Style} (h : (s == t) = true) (k : Kind) :
    modifierBlock s k = modifierBlock t k := by
  obtain ⟨hcolor, color, rfl⟩ := style_congr h
  have hitems : modifierItems { t with color } k = modifierItems t k := by
    cases k <;> simp only [modifierItems, hcolor]
  rw [modifierBlock, modifierBlock, hitems]

theorem command_congr {s t : Style} (h : (s == t) = true) (k : Kind) : command s k = command t k := by
  obtain ⟨-, color, rfl⟩ := style_congr h
  rfl

/-! ### Shapes -/

/-- Equal shapes have the same picture text. -/
theorem writeShape_eq_of_beq {a b : Shape Float} (h : (a == b) = true) :
    writeShape a = writeShape b := by
  obtain ⟨hgeometry, hstyle⟩ := Bool.and_eq_true_iff.1 h
  obtain ⟨hkind, hbody⟩ := body_congr hgeometry
  unfold writeShape Shape.kind
  rw [hkind, command_congr hstyle, modifierBlock_congr hstyle, hbody]

/-- Two circles with the same rim, each with its own point on it. The second one starts from minus zeros,
has a tint of minus zero and carries an image. -/
theorem writeShape_of_other_rim :
    let circle : Shape Float :=
      { geometry := .circle ⟨0, 1⟩ ⟨5, 1⟩, style := { color := ⟨.red, 0⟩ } }
    let other : Shape Float :=
      { geometry := .circle ⟨-0, 1⟩ ⟨3, 5⟩, style := { color := ⟨.red, -0⟩ }, raster := some 7 }
    (circle == other) = true ∧ writeShape circle = writeShape other :=
  ⟨by decide +kernel, writeShape_eq_of_beq (by decide +kernel)⟩

end Picture

end Draftboard
