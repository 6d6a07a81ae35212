import Draftboard.Proofs.Geometry.Translation
import Draftboard.Proofs.Scene.Checked

/-!
# Draftboard.Proofs.Scene.Offset

Drawing a shape at an offset is drawing the moved shape, with coordinates that are not rounded.

* A moved shape has dropped its triangles, and asks for those of the moved polygon. They are the
  triangles that it had (`Shape.triangles_translate`), so the fill is the same
  (`View.fill_translate`). The outline of a curve is sampled before the offset is added or after it
  (`View.outline_translate`), which is the same if its weights add up to one. So they do up to 21 points
  (`Geometry.Uncut`).
* The moved shape is broken off where the shape is (`View.checkedDrawShape_translate`).
-/

namespace Draftboard

variable {σ α : Type}

/-! ### What is drawn of a shape -/

/-- The geometry is no curve, or one of at most 21 points, the factorials of which are not cut off. -/
def Geometry.Uncut : Geometry α → Prop
  | .curve _ controls _ => controls.length + 2 ≤ 21
  | _ => True

/-- What a drawing shows, and the state in which it leaves the rasterizer. -/
def Drawn.shown (drawn : Drawn σ α) : List (Primitive α) × σ := (drawn.primitives, drawn.state)

section Drawn

variable [Scalar α]

@[simp] theorem Shape.style_translate (s : Shape α) (offset : Point α) :
    (s.translate offset).style = s.style := rfl

@[simp] theorem Shape.geometry_translate (s : Shape α) (offset : Point α) :
    (s.translate offset).geometry = s.geometry.translate offset := rfl

@[simp] theorem Geometry.vertices_translate (g : Geometry α) (offset : Point α) :
    (g.translate offset).vertices = g.vertices.map (· + offset) := by
  cases g <;> rfl

theorem Shape.current_translate (s : Shape α) (offset : Point α) : (s.translate offset).Current :=
  .withGeometry s _

namespace View

theorem filling?_eq (v : View α) (offset : Point α) {s : Shape α} (h : s.Current) :
    v.filling? offset s s.triangles.1 = some (v.fill offset s).1 := by
  rw [← map_fst_fill?, v.fill?_eq offset h, Option.map_some]

omit [Scalar α] in
/-- The image of a label depends on its text, and on the image that it has. -/
theorem labelRaster_congr (rasterizer : Rasterizer σ) {s t : Shape α} {a b : Point α} {text : String}
    (hs : s.geometry = .label a text) (ht : t.geometry = .label b text) (hraster : s.raster = t.raster)
    (state : σ) :
    (labelRaster rasterizer s state).1 = (labelRaster rasterizer t state).1 ∧
      (labelRaster rasterizer s state).2.2 = (labelRaster rasterizer t state).2.2 := by
  rw [labelRaster, labelRaster, hs, ht, ← hraster]
  dsimp only
  split
  · cases s.raster <;> exact ⟨rfl, rfl⟩
  · exact ⟨rfl, rfl⟩

end View

end Drawn

/-! ### Moved shapes -/

variable [Scalar.Functions ℚ]

/-- A moved polygon is filled with the triangles that it had. -/
theorem Shape.triangles_translate {s : Shape ℚ} (h : s.Current) (offset : Point ℚ) :
    (s.translate offset).triangles.1 = s.triangles.1 := by
  have hpolygon : ∀ fan, (∃ vertices, s.geometry.translate offset = .polyline vertices ∧
      triangulate vertices = .ok fan) ↔
      ∃ vertices, s.geometry = .polyline vertices ∧ triangulate vertices = .ok fan := by
    intro fan
    cases s.geometry <;> simp [Geometry.translate, triangulate_translate]
  refine Option.ext fun fan => ?_
  rw [(s.current_translate offset).triangles_eq_some_iff, h.triangles_eq_some_iff, style_translate,
    geometry_translate, hpolygon]

namespace View

variable (v : View ℚ) (offset : Point ℚ)

theorem corners?_translate (vertices : List (Point ℚ)) :
    v.corners? Point.origin (vertices.map (· + offset)) = v.corners? offset vertices := by
  have hread : ∀ i : Nat, (vertices.map (· + offset))[i]? = vertices[i]?.map (· + offset) := by simp
  funext t
  simp only [corners?, hread]
  cases vertices[t.a]? <;> cases vertices[t.b]? <;> cases vertices[t.c]? <;> simp

theorem fill_translate {s : Shape ℚ} (h : s.Current) :
    (v.fill Point.origin (s.translate offset)).1 = (v.fill offset s).1 := by
  have hfilling : v.filling? Point.origin (s.translate offset) (s.translate offset).triangles.1 =
      v.filling? offset s s.triangles.1 := by
    rw [Shape.triangles_translate h]
    simp [filling?, corners?_translate]
  rw [filling?_eq v _ (s.current_translate offset), filling?_eq v _ h] at hfilling
  exact Option.some.inj hfilling

theorem outline_translate (style : Style) {g : Geometry ℚ} (h : g.Uncut) :
    v.outline Point.origin style (g.translate offset) = v.outline offset style g := by
  cases g with
  | line start stop => simp [outline, Geometry.translate]
  | circle center rim => simp [outline, Geometry.translate]
  | polyline vertices => simp [outline, Geometry.translate, Function.comp_def]
  | curve start controls stop =>
    have hne := Curve.controlPolygon_ne_nil start controls stop
    have hlength : (Curve.controlPolygon start controls stop).length ≤ 21 := by
      rwa [Curve.length_controlPolygon]
    simp [outline, Geometry.translate, Curve.controlPolygon_translate,
      Curve.sample_translate hne hlength, Function.comp_def]
  | label anchor text => rfl

theorem outlineCrash?_translate (style : Style) (g : Geometry ℚ) :
    v.outlineCrash? Point.origin style (g.translate offset) = v.outlineCrash? offset style g := by
  cases g with
  | circle | curve => simp [outlineCrash?, Geometry.translate]
  | line | polyline | label => rfl

theorem crash?_translate {s : Shape ℚ} (h : s.Current) :
    v.crash? Point.origin (s.translate offset) = v.crash? offset s := by
  rw [v.crash?_of_current _ (s.current_translate offset), v.crash?_of_current _ h, Shape.style_translate,
    Shape.geometry_translate, outlineCrash?_translate]

/-- A shape drawn at an offset shows what the moved shape shows, and leaves the rasterizer in the same
state. -/
theorem drawShape_translate (rasterizer : Rasterizer σ) {s : Shape ℚ} (h : s.Current)
    (hcut : s.geometry.Uncut) (state : σ) :
    (v.drawShape rasterizer Point.origin (s.translate offset) state).shown =
      (v.drawShape rasterizer offset s state).shown := by
  by_cases hkind : s.kind = .label
  · obtain ⟨anchor, text, hlabel⟩ := Shape.exists_label hkind
    have hmoved : (s.translate offset).geometry = .label (anchor + offset) text := by
      rw [Shape.geometry_translate, hlabel, Geometry.translate]
    have hraster : (s.translate offset).raster = s.raster := if_pos hkind
    obtain ⟨himage, hstate⟩ := labelRaster_congr rasterizer hmoved hlabel hraster state
    rw [v.drawShape_label rasterizer _ hmoved, v.drawShape_label rasterizer _ hlabel]
    dsimp only [Drawn.shown]
    rw [himage, hstate, Point.add_origin_rat, Shape.style_translate]
  · have hkind' : (s.translate offset).kind ≠ .label := by
      rwa [Shape.kind, Shape.geometry_translate, Geometry.kind_translate]
    rw [v.drawShape_eq rasterizer _ hkind, v.drawShape_eq rasterizer _ hkind']
    dsimp only [Drawn.shown]
    rw [v.fill_translate offset h, Shape.style_translate, Shape.geometry_translate,
      v.outline_translate offset _ hcut]

theorem checkedDrawShape_translate (rasterizer : Rasterizer σ) {s : Shape ℚ} (h : s.Current)
    (hcut : s.geometry.Uncut) (state : σ) :
    (v.checkedDrawShape rasterizer Point.origin (s.translate offset) state).map Drawn.shown =
      (v.checkedDrawShape rasterizer offset s state).map Drawn.shown := by
  have hshown := v.drawShape_translate offset rasterizer h hcut state
  rw [checkedDrawShape_eq, checkedDrawShape_eq, v.crash?_translate offset h]
  cases v.crash? offset s with
  | some crash => rfl
  | none => exact congrArg Except.ok hshown

end View

end Draftboard
