import Draftboard.Diagram
import Draftboard.Proofs.Geometry.Factorial
import Draftboard.Proofs.Scene.Again
import Draftboard.Proofs.Shape.Fan

/-!
# Draftboard.Proofs.Scene.Checked

Where drawing is broken off, and that it is the unchecked drawing anywhere else.

* `View.crash?` says of a shape why it cannot be drawn: a triangle names a vertex that is not there, the ring
  of an outlined circle has more points than a list holds, or a curve has more than 66 points. Checked drawing
  gives that crash, or what unchecked drawing gives (`View.checkedDrawShape_eq`), and a scene is broken off at
  the first shape with a crash (`Scene.checkedBuild_eq`).
* A crash is read off the style, the geometry and the triangles of a shape, and drawing keeps these. So a shape
  that was drawn can be drawn again (`View.crash?_drawShape`).
* `Scene.build_fills_in` puts this together with what drawing fills in.
-/

namespace Draftboard

/-! ### Crashes -/

section Crashes

variable {β : Type}

/-- A crash, or the value if there is none. -/
def orCrash (b : β) : Option Crash → Except Crash β
  | some crash => .error crash
  | none => .ok b

theorem orCrash_eq_ok_iff {b b' : β} {crash : Option Crash} :
    orCrash b crash = .ok b' ↔ crash = none ∧ b = b' := by
  cases crash with
  | none => simp [orCrash]
  | some crash => simp [orCrash]

theorem orCrash_eq_error_iff {b : β} {crash : Option Crash} {e : Crash} :
    orCrash b crash = .error e ↔ crash = some e := by
  cases crash with
  | none => simp [orCrash]
  | some crash => simp [orCrash]

end Crashes

/-! ### Fills -/

/-- What either gives the value of a function or nothing does so for a whole list. -/
theorem mapM_eq_or {β γ : Type} {f : β → Option γ} {g : β → γ}
    (h : ∀ b, f b = some (g b) ∨ f b = none) (l : List β) :
    l.mapM f = some (l.map g) ∨ l.mapM f = none := by
  induction l with
  | nil => exact .inl rfl
  | cons b l ih =>
    rw [List.mapM_cons]
    rcases h b with hb | hb
    · rcases ih with hl | hl
      · exact .inl (by rw [hb, hl]; rfl)
      · exact .inr (by rw [hb, hl]; rfl)
    · exact .inr (by rw [hb]; rfl)

variable {σ τ α : Type} [Scalar α]

namespace View

theorem corners?_eq_or (v : View α) (offset : Point α) (vertices : List (Point α)) (t : Triangle) :
    v.corners? offset vertices t = some (
      v.toScreen (vertices.toArray.getD t.a Point.origin + offset),
      v.toScreen (vertices.toArray.getD t.b Point.origin + offset),
      v.toScreen (vertices.toArray.getD t.c Point.origin + offset)) ∨
      v.corners? offset vertices t = none := by
  by_cases h : t.a < vertices.length ∧ t.b < vertices.length ∧ t.c < vertices.length
  · exact .inl (v.corners?_eq offset h)
  · refine .inr ?_
    rw [corners?]
    cases ha : vertices[t.a]? with
    | none => rfl
    | some a =>
      cases hb : vertices[t.b]? with
      | none => rfl
      | some b =>
        have hc : vertices[t.c]? = none := by
          rw [List.getElem?_eq_none_iff]
          have ha := (List.getElem?_eq_some_iff.1 ha).1
          have hb := (List.getElem?_eq_some_iff.1 hb).1
          omega
        rw [hc]
        rfl

/-- The checked fill is the fill, or a vertex is missing. -/
theorem fill?_eq_or (v : View α) (offset : Point α) (s : Shape α) :
    v.fill? offset s = some (v.fill offset s) ∨ v.fill? offset s = none := by
  rw [fill?, fill]
  generalize s.triangles = asked
  obtain ⟨_ | fan, t⟩ := asked
  · split <;> exact .inl rfl
  · split
    · rcases mapM_eq_or (v.corners?_eq_or offset t.geometry.vertices) fan with h | h
      · exact .inl (by simp only [h]; rfl)
      · exact .inr (by simp only [h]; rfl)
    · exact .inl rfl

/-- The fill of a shape whose triangles are `asked`, if all their corners are there. -/
def filling? (v : View α) (offset : Point α) (s : Shape α) (asked : Option (List Triangle)) :
    Option (List (Primitive α)) :=
  match asked with
  | some fan =>
    if s.style.filled && !v.wireframe then
      (fan.mapM (v.corners? offset s.geometry.vertices)).map fun corners =>
        [.fill corners (s.style.color.display v.light)]
    else some []
  | none => some []

theorem map_fst_fill? (v : View α) (offset : Point α) (s : Shape α) :
    (v.fill? offset s).map Prod.fst = v.filling? offset s s.triangles.1 := by
  have hderived := s.derived_triangles
  rw [fill?]
  generalize s.triangles = asked at hderived ⊢
  obtain ⟨_ | fan, t⟩ := asked
  · split <;> rfl
  · rw [filling?, ← hderived.geometry_eq, ← hderived.style_eq]
    split
    · change Option.map _ (Option.bind _ _) = _
      cases fan.mapM (v.corners? offset t.geometry.vertices) <;> rfl
    · rfl

/-! ### Outlines -/

/-- Why the outline of a shape cannot be drawn, if it cannot. -/
def outlineCrash? (v : View α) (offset : Point α) (style : Style) : Geometry α → Option Crash
  | .circle center rim =>
    if (style.filled && !v.wireframe) ∨
        circleSegments ((v.toScreen (rim + offset)).distance (v.toScreen (center + offset))) + 1 <
          pointLimit then none
    else some .capacityOverflow
  | .curve _ controls _ => if controls.length + 2 ≤ 66 then none else some .divisionByZero
  | _ => none

theorem checkedOutline_eq (v : View α) (offset : Point α) (style : Style) (g : Geometry α) :
    v.checkedOutline offset style g =
      orCrash (v.outline offset style g) (v.outlineCrash? offset style g) := by
  cases g with
  | circle center rim =>
    rw [checkedOutline, outline, outlineCrash?]
    by_cases hfilled : (style.filled && !v.wireframe) = true
    · rw [if_pos hfilled, if_pos hfilled, if_pos (.inl hfilled)]
      rfl
    · rw [if_neg hfilled, if_neg hfilled, checkedCirclePoints]
      by_cases hsize : circleSegments
          ((v.toScreen (rim + offset)).distance (v.toScreen (center + offset))) + 1 < pointLimit
      · rw [if_pos hsize, if_pos (.inr hsize)]
        rfl
      · rw [if_neg hsize, if_neg fun h => h.elim hfilled hsize]
        rfl
  | curve start controls stop =>
    rw [checkedOutline, outline, outlineCrash?, Curve.checkedSample_eq, Curve.length_controlPolygon]
    split <;> rfl
  | line | polyline | label => rfl

/-! ### Shapes -/

/-- Why a shape cannot be drawn, if it cannot. -/
def crash? (v : View α) (offset : Point α) (s : Shape α) : Option Crash :=
  if v.fill? offset s = none then some .outOfRange else v.outlineCrash? offset s.style s.geometry

/-- A shape is drawn, unless there is a crash. -/
theorem checkedDrawShape_eq (v : View α) (rasterizer : Rasterizer σ) (offset : Point α) (s : Shape α)
    (state : σ) : v.checkedDrawShape rasterizer offset s state =
      orCrash (v.drawShape rasterizer offset s state) (v.crash? offset s) := by
  rw [checkedDrawShape, crash?]
  rcases v.fill?_eq_or offset s with hfill | hfill
  · have hderived := v.derived_fill offset s
    rw [hfill, if_neg (by nofun), drawShape]
    dsimp only
    rw [hderived.geometry_eq, hderived.style_eq]
    cases s.geometry with
    | label anchor text => rfl
    | line | circle | polyline | curve =>
      dsimp only
      rw [checkedOutline_eq]
      cases v.outlineCrash? offset s.style _ <;> rfl
  · rw [hfill, if_pos rfl]
    rfl

theorem checkedDrawEditing_eq (v : View α) (rasterizer : Rasterizer σ) (s : Shape α) (state : σ) :
    v.checkedDrawEditing rasterizer s state =
      orCrash (v.drawEditing rasterizer s state) (v.crash? v.editingOffset s) := by
  rw [checkedDrawEditing, drawEditing, editingOffset]
  split
  · exact v.checkedDrawShape_eq rasterizer _ s state
  · rw [checkedDrawShape_eq]
    cases v.crash? Point.origin s <;> rfl

/-- A shape whose triangles are current has all the vertices that they name. -/
theorem crash?_of_current (v : View α) (offset : Point α) {s : Shape α} (h : s.Current) :
    v.crash? offset s = v.outlineCrash? offset s.style s.geometry := by
  rw [crash?, v.fill?_eq offset h, if_neg (by nofun)]

theorem outlineCrash?_ne_outOfRange (v : View α) (offset : Point α) (style : Style) (g : Geometry α) :
    v.outlineCrash? offset style g ≠ some .outOfRange := by
  cases g with
  | circle | curve =>
    rw [outlineCrash?]
    split <;> nofun
  | line | polyline | label => nofun

/-- A crash is read off the style, the geometry and the triangles. -/
theorem crash?_congr (v : View α) (offset : Point α) {s t : Shape α} (hstyle : t.style = s.style)
    (hgeometry : t.geometry = s.geometry) (htriangles : t.triangles.1 = s.triangles.1) :
    v.crash? offset t = v.crash? offset s := by
  have hfill : v.fill? offset t = none ↔ v.fill? offset s = none := by
    rw [← Option.map_eq_none_iff (f := Prod.fst), map_fst_fill?,
      ← Option.map_eq_none_iff (f := Prod.fst), map_fst_fill?, htriangles, filling?.eq_def,
      filling?.eq_def, hstyle, hgeometry]
  rw [crash?, crash?, hstyle, hgeometry]
  simp only [hfill]

/-- What could be drawn can be drawn again. -/
theorem crash?_drawShape (v : View α) (rasterizer : Rasterizer σ) (offset other : Point α) (s : Shape α)
    (state : σ) :
    v.crash? other (v.drawShape rasterizer offset s state).shape = v.crash? other s := by
  have hderived := v.derived_drawShape rasterizer offset s state
  refine v.crash?_congr other hderived.style_eq hderived.geometry_eq ?_
  rw [shape_drawShape, Shape.triangles_raster]
  split
  · rw [s.triangles_again]
  · rfl

end View

/-! ### Scenes -/

namespace Scene

/-- The first crash of committed shapes and of the shape that is being made. -/
def crash? (v : View α) (shapes : List (Shape α)) (editing : Option (Shape α)) : Option Crash :=
  (shapes.findSome? (v.crash? Point.origin)).or (editing.bind (v.crash? v.editingOffset))

theorem checkedDrawShapes_eq (v : View α) (rasterizer : Rasterizer σ) (shapes : List (Shape α))
    (state : σ) : checkedDrawShapes v rasterizer shapes state =
      orCrash (drawShapes v rasterizer shapes state) (shapes.findSome? (v.crash? Point.origin)) := by
  induction shapes generalizing state with
  | nil => rfl
  | cons s rest ih =>
    rw [checkedDrawShapes, v.checkedDrawShape_eq, List.findSome?_cons]
    cases v.crash? Point.origin s with
    | some crash => rfl
    | none =>
      change Except.map _ (checkedDrawShapes v rasterizer rest _) = _
      rw [ih]
      cases rest.findSome? (v.crash? Point.origin) <;> rfl

/-- A scene is built, unless there is a crash. -/
theorem checkedBuild_eq (v : View α) (rasterizer : Rasterizer σ) (shapes : List (Shape α))
    (editing : Option (Shape α)) (state : σ) : checkedBuild v rasterizer shapes editing state =
      orCrash (build v rasterizer shapes editing state) (crash? v shapes editing) := by
  rw [checkedBuild, checkedDrawShapes_eq, crash?]
  cases shapes.findSome? (v.crash? Point.origin) with
  | some crash => rfl
  | none =>
    cases editing with
    | none => rfl
    | some s =>
      change Except.map _ (v.checkedDrawEditing rasterizer s _) = _
      rw [View.checkedDrawEditing_eq]
      simp only [Option.none_or, Option.bind_some]
      cases v.crash? v.editingOffset s <;> rfl

theorem checkedBuild_eq_ok_iff {v : View α} {rasterizer : Rasterizer σ} {shapes : List (Shape α)}
    {editing : Option (Shape α)} {state : σ} {scene : Scene σ α} :
    checkedBuild v rasterizer shapes editing state = .ok scene ↔
      crash? v shapes editing = none ∧ build v rasterizer shapes editing state = scene := by
  rw [checkedBuild_eq, orCrash_eq_ok_iff]

/-- Shapes whose triangles are current can all be drawn, up to the size of their outlines. -/
theorem crash?_eq_none_iff (v : View α) {shapes : List (Shape α)} {editing : Option (Shape α)}
    (h : ∀ s ∈ shapes, s.Current) (h' : ∀ s ∈ editing, s.Current) :
    crash? v shapes editing = none ↔
      (∀ s ∈ shapes, v.outlineCrash? Point.origin s.style s.geometry = none) ∧
        ∀ s ∈ editing, v.outlineCrash? v.editingOffset s.style s.geometry = none := by
  rw [crash?, Option.or_eq_none_iff, List.findSome?_eq_none_iff, Option.bind_eq_none_iff]
  exact and_congr (forall₂_congr fun s hs => by rw [v.crash?_of_current _ (h s hs)])
    (forall₂_congr fun s hs => by rw [v.crash?_of_current _ (h' s hs)])

/-- Shapes whose triangles are current never lack a vertex. -/
theorem crash?_ne_outOfRange (v : View α) {shapes : List (Shape α)} {editing : Option (Shape α)}
    (h : ∀ s ∈ shapes, s.Current) (h' : ∀ s ∈ editing, s.Current) :
    crash? v shapes editing ≠ some .outOfRange := by
  intro hcrash
  rw [crash?, Option.or_eq_some_iff] at hcrash
  rcases hcrash with hshapes | ⟨-, hediting⟩
  · obtain ⟨s, hs, hcrash⟩ := List.exists_of_findSome?_eq_some hshapes
    rw [v.crash?_of_current _ (h s hs)] at hcrash
    exact v.outlineCrash?_ne_outOfRange _ _ _ hcrash
  · obtain ⟨s, hs, hcrash⟩ := Option.bind_eq_some_iff.1 hediting
    rw [v.crash?_of_current _ (h' s hs)] at hcrash
    exact v.outlineCrash?_ne_outOfRange _ _ _ hcrash

/-- The shapes of a scene have the crashes of the shapes that it was built of. -/
theorem findSome?_crash?_of_draws {v : View α} {rasterizer : Rasterizer σ} {before after : List (Shape α)}
    (h : List.Forall₂ (v.Draws rasterizer) before after) (offset : Point α) :
    after.findSome? (v.crash? offset) = before.findSome? (v.crash? offset) := by
  induction h with
  | nil => rfl
  | cons hdraws _ ih =>
    obtain ⟨other, state, rfl⟩ := hdraws
    rw [List.findSome?_cons, List.findSome?_cons, v.crash?_drawShape, ih]

theorem crash?_build (v : View α) (rasterizer : Rasterizer σ) (shapes : List (Shape α))
    (editing : Option (Shape α)) (state : σ) :
    let scene := build v rasterizer shapes editing state
    crash? v scene.shapes scene.editing = crash? v shapes editing := by
  have hdrawn := forall₂_build v rasterizer shapes editing state
  have hbind : ∀ o : Option (Shape α),
      o.bind (v.crash? v.editingOffset) = o.toList.findSome? (v.crash? v.editingOffset) := by
    intro o
    cases o with
    | none => rfl
    | some s => simp
  dsimp only
  rw [crash?, crash?, hbind, hbind, findSome?_crash?_of_draws hdrawn.1, findSome?_crash?_of_draws hdrawn.2]

/-- A scene that was built can be built again, the same, by whatever rasterizer and without asking it. -/
theorem checkedBuild_again {v : View α} {rasterizer : Rasterizer σ} {shapes : List (Shape α)}
    {editing : Option (Shape α)} {state : σ} {scene : Scene σ α}
    (h : checkedBuild v rasterizer shapes editing state = .ok scene) (other : Rasterizer τ) (state' : τ) :
    checkedBuild v other scene.shapes scene.editing state' =
      .ok ⟨scene.primitives, scene.shapes, scene.editing, state'⟩ := by
  obtain ⟨hcrash, rfl⟩ := checkedBuild_eq_ok_iff.1 h
  rw [checkedBuild_eq, crash?_build, hcrash, build_again]
  rfl

theorem checkedBuild_listening {v : View α} {rasterizer : Rasterizer σ} {shapes : List (Shape α)}
    {editing : Option (Shape α)} {state : σ} {scene : Scene σ α}
    (h : checkedBuild v rasterizer shapes editing state = .ok scene) (asked : List String) :
    checkedBuild v rasterizer.listening shapes editing (state, asked) =
      .ok ⟨scene.primitives, scene.shapes, scene.editing, scene.state,
        asked ++ (shapes ++ editing.toList).filterMap Shape.missing?⟩ := by
  obtain ⟨hcrash, rfl⟩ := checkedBuild_eq_ok_iff.1 h
  rw [checkedBuild_eq, hcrash, build_listening]
  rfl

/-- Two diagrams are drawn one after the other. -/
theorem checkedBuild_append (v : View α) (rasterizer : Rasterizer σ) (a b : List (Shape α))
    (editing : Option (Shape α)) (state : σ) :
    checkedBuild v rasterizer (a ++ b) editing state = do
      let first ← checkedBuild v rasterizer a none state
      let second ← checkedBuild v rasterizer b editing first.state
      return ⟨first.primitives ++ second.primitives, first.shapes ++ second.shapes, second.editing,
        second.state⟩ := by
  have hcrash : crash? v (a ++ b) editing = (crash? v a none).or (crash? v b editing) := by
    rw [crash?, crash?, crash?, List.findSome?_append, Option.bind_none, Option.or_none, Option.or_assoc]
  rw [checkedBuild_eq, hcrash, build_append, checkedBuild_eq]
  cases crash? v a none with
  | some crash => rfl
  | none =>
    change _ = Except.bind (checkedBuild v rasterizer b editing _) _
    rw [checkedBuild_eq, Option.none_or]
    cases crash? v b editing <;> rfl

end Scene

end Draftboard
