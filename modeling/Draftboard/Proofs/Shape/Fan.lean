import Draftboard.Diagram
import Draftboard.Proofs.Geometry.Dissection
import Draftboard.Proofs.Scene.Drawn

/-!
# Draftboard.Proofs.Shape.Fan

The triangles that a shape keeps do not show.

* A shape is `Built` if it was new once and has been changed since then in one of the ways that shapes
  are changed (`Change`): points are moved, vertices added, the geometry or the style replaced, images
  put on and taken off, and triangles asked for.
* `Current` says that kept triangles are those of the vertices that the shape has now. Each change keeps
  that: the ones that change the geometry drop the triangles, and the others leave the geometry alone
  (`Current.change`).
* So asking for the triangles gives those of the present polygon, kept or not
  (`Current.triangles_eq_some_iff`), and their corners are vertices that are there. The filling is
  written once more so that a missing vertex makes it fail (`View.fill?`); it never fails
  (`View.fill?_eq`), and so nor does drawing any diagram.
-/

namespace Draftboard

variable {σ α : Type}

namespace Shape

/-! ### Changes -/

/-- A change that is made to a shape. -/
inductive Change (α : Type)
  | setStart (p : Point α)
  | setStop (p : Point α)
  | setControl (index : Nat) (p : Point α)
  | pushVertex (p : Point α)
  | translate (offset : Point α)
  /-- The geometry is edited, to whatever is wanted. -/
  | edit (g : Geometry α)
  | restyle (style : Style)
  | setRaster (raster : Raster)
  | takeRaster
  /-- The triangles are asked for. -/
  | triangles

variable [Scalar α]

/-- The shape after a change. What does not apply to its kind changes nothing. -/
def change (s : Shape α) : Change α → Shape α
  | .setStart p => s.setStart p
  | .setStop p => s.setStop p
  | .setControl index p => (s.setControl? index p).getD s
  | .pushVertex p => (s.pushVertex? p).getD s
  | .translate offset => s.translate offset
  | .edit g => s.withGeometry g
  | .restyle style => s.withStyle style
  | .setRaster raster => { s with raster := some raster }
  | .takeRaster => s.takeRaster.2
  | .triangles => s.triangles.2

/-- A shape that was made new and then changed any number of times. -/
inductive Built : Shape α → Prop
  | new (geometry : Geometry α) (style : Style) : Built { geometry, style }
  | change {s : Shape α} (h : Built s) (c : Change α) : Built (s.change c)

/-! ### Current triangles -/

/-- Kept triangles are those of the polygon that the shape has now. -/
def Current (s : Shape α) : Prop :=
  ∀ fan, s.fan = some fan → ∃ vertices, s.geometry = .polyline vertices ∧
    triangulate vertices = .ok fan

namespace Current

variable {s t : Shape α}

theorem of_fan_eq_none (h : s.fan = none) : s.Current := by
  intro fan hfan
  rw [h] at hfan
  cases hfan

/-- With the geometry the triangles go. -/
theorem withGeometry (s : Shape α) (g : Geometry α) : (s.withGeometry g).Current :=
  of_fan_eq_none rfl

/-- What is asked for is kept, and is current. -/
theorem triangles (h : s.Current) : s.triangles.2.Current := by
  rw [Shape.triangles]
  split
  · rename_i vertices _ hgeometry
    split
    · exact h
    · split
      · rename_i fan hok
        intro fan' hfan'
        obtain rfl := Option.some.inj hfan'
        exact ⟨vertices, hgeometry, hok⟩
      · exact h
  · exact h

theorem change (h : s.Current) (c : Change α) : (s.change c).Current := by
  cases c with
  | setStart p => exact withGeometry s _
  | setStop p => exact withGeometry s _
  | setControl index p =>
    rw [Shape.change, setControl?]
    split
    · split
      · exact withGeometry s _
      · exact h
    · exact h
  | pushVertex p =>
    rw [Shape.change, pushVertex?]
    split
    · exact withGeometry s _
    · exact h
  | translate offset => exact withGeometry s _
  | edit g => exact withGeometry s g
  | restyle style => exact h
  | setRaster raster => exact h
  | takeRaster => exact h
  | triangles => exact h.triangles

/-- The triangles of a shape are those of its polygon, if it is filled, whether they are kept or not. -/
theorem triangles_eq_some_iff (h : s.Current) (fan : List Triangle) :
    s.triangles.1 = some fan ↔ s.style.filled = true ∧ ∃ vertices, s.geometry = .polyline vertices ∧
      triangulate vertices = .ok fan := by
  rw [Shape.triangles]
  split
  · rename_i vertices hfilled hgeometry
    have hpolygon : (∃ ws, s.geometry = .polyline ws ∧ triangulate ws = .ok fan) ↔
        triangulate vertices = .ok fan := by
      simp [hgeometry]
    rw [hpolygon]
    split
    · rename_i kept hkept
      obtain ⟨ws, hws, hok⟩ := h kept hkept
      obtain rfl := Geometry.polyline.inj (hgeometry.symm.trans hws)
      simp [hfilled, hok]
    · split
      · rename_i made hok
        simp [hfilled, hok]
      · rename_i e herror
        simp [herror]
  · rename_i hnone
    refine iff_of_false (by simp) ?_
    rintro ⟨hfilled, vertices, hgeometry, -⟩
    exact hnone vertices hfilled hgeometry

end Current

theorem Built.current {s : Shape α} (h : s.Built) : s.Current := by
  induction h with
  | new geometry style => exact .of_fan_eq_none rfl
  | change _ c ih => exact ih.change c

end Shape

/-! ### Drawing with checked subscripts -/

variable [Scalar α]

namespace View

/-- Draws a shape, if its fill can be drawn. -/
def drawShape? (v : View α) (rasterizer : Rasterizer σ) (offset : Point α) (s : Shape α) (state : σ) :
    Option (Drawn σ α) :=
  (v.fill? offset s).map fun _ => v.drawShape rasterizer offset s state

/-- Draws the shape that is being made, if its fill can be drawn. -/
def drawEditing? (v : View α) (rasterizer : Rasterizer σ) (s : Shape α) (state : σ) :
    Option (Drawn σ α) :=
  (v.fill? (if v.mode = .droppedPolygon then v.pointer else Point.origin) s).map fun _ =>
    v.drawEditing rasterizer s state

theorem corners?_eq (v : View α) (offset : Point α) {vertices : List (Point α)} {t : Triangle}
    (h : t.a < vertices.length ∧ t.b < vertices.length ∧ t.c < vertices.length) :
    v.corners? offset vertices t = some (
      v.toScreen (vertices.toArray.getD t.a Point.origin + offset),
      v.toScreen (vertices.toArray.getD t.b Point.origin + offset),
      v.toScreen (vertices.toArray.getD t.c Point.origin + offset)) := by
  obtain ⟨ha, hb, hc⟩ := h
  simp [corners?, ha, hb, hc]

/-- The fill reads no vertex that is not there. -/
theorem fill?_eq (v : View α) (offset : Point α) {s : Shape α} (h : s.Current) :
    v.fill? offset s = some (v.fill offset s) := by
  have hsame := s.derived_triangles.geometry_eq
  have hfan := h.triangles_eq_some_iff
  rw [fill?, fill]
  generalize s.triangles = asked at hsame hfan ⊢
  obtain ⟨_ | fan, t⟩ := asked
  · split <;> rfl
  · obtain ⟨-, vertices, hgeometry, hok⟩ := (hfan fan).1 rfl
    have hcorners : ∀ triangle ∈ fan, v.corners? offset t.geometry.vertices triangle = some (
        v.toScreen (t.geometry.vertices.toArray.getD triangle.a Point.origin + offset),
        v.toScreen (t.geometry.vertices.toArray.getD triangle.b Point.origin + offset),
        v.toScreen (t.geometry.vertices.toArray.getD triangle.c Point.origin + offset)) := by
      intro triangle hmem
      rw [hsame, hgeometry]
      exact v.corners?_eq offset (Triangulation.lt_length_of_mem_triangulate hok hmem)
    split
    · simp only [Triangulation.mapM_eq_some hcorners]
      rfl
    · rfl

theorem drawShape?_eq (v : View α) (rasterizer : Rasterizer σ) (offset : Point α) {s : Shape α}
    (h : s.Current) (state : σ) :
    v.drawShape? rasterizer offset s state = some (v.drawShape rasterizer offset s state) := by
  rw [drawShape?, v.fill?_eq offset h, Option.map_some]

theorem drawEditing?_eq (v : View α) (rasterizer : Rasterizer σ) {s : Shape α} (h : s.Current)
    (state : σ) : v.drawEditing? rasterizer s state = some (v.drawEditing rasterizer s state) := by
  rw [drawEditing?, v.fill?_eq _ h, Option.map_some]

end View

namespace Scene

/-- Draws shapes in order, as long as their fills can be drawn. -/
def drawShapes? (v : View α) (rasterizer : Rasterizer σ) :
    List (Shape α) → σ → Option (List (Primitive α) × List (Shape α) × σ)
  | [], state => some ([], [], state)
  | s :: rest, state => do
    let drawn ← v.drawShape? rasterizer Point.origin s state
    let (primitives, shapes, state) ← drawShapes? v rasterizer rest drawn.state
    return (drawn.primitives ++ primitives, drawn.shape :: shapes, state)

/-- The scene, if all fills can be drawn. -/
def build? (v : View α) (rasterizer : Rasterizer σ) (shapes : List (Shape α))
    (editing : Option (Shape α)) (state : σ) : Option (Scene σ α) := do
  let (primitives, shapes, state) ← drawShapes? v rasterizer shapes state
  match editing with
  | none => return ⟨primitives, shapes, none, state⟩
  | some s =>
    let drawn ← v.drawEditing? rasterizer s state
    return ⟨primitives ++ drawn.primitives, shapes, some drawn.shape, drawn.state⟩

theorem drawShapes?_eq (v : View α) (rasterizer : Rasterizer σ) {shapes : List (Shape α)}
    (h : ∀ s ∈ shapes, s.Current) (state : σ) :
    drawShapes? v rasterizer shapes state = some (drawShapes v rasterizer shapes state) := by
  induction shapes generalizing state with
  | nil => rfl
  | cons s rest ih =>
    rw [drawShapes?, v.drawShape?_eq rasterizer _ (h s (by simp)), Option.bind_eq_bind, Option.bind_some,
      ih fun t ht => h t (by simp [ht])]
    rfl

theorem build?_eq (v : View α) (rasterizer : Rasterizer σ) {shapes : List (Shape α)}
    {editing : Option (Shape α)} (h : ∀ s ∈ shapes, s.Current) (h' : ∀ s ∈ editing, s.Current)
    (state : σ) : build? v rasterizer shapes editing state = some (build v rasterizer shapes editing state) := by
  rw [build?, drawShapes?_eq v rasterizer h]
  cases editing with
  | none => rfl
  | some s =>
    simp only [Option.bind_eq_bind, Option.bind_some, v.drawEditing?_eq rasterizer (h' s rfl)]
    rfl

end Scene

/-- The triangles that a shape keeps are those of its present polygon. What is asked for is what the
polygon gives if it is filled, and no drawing of any shapes reads a vertex that is not there. -/
theorem fan_transparent {σ α : Type} [Scalar α] :
    (∀ s : Shape α, s.Built →
      (∀ fan, s.fan = some fan → ∃ vertices, s.geometry = .polyline vertices ∧
        triangulate vertices = .ok fan) ∧
      ∀ fan, s.triangles.1 = some fan ↔ s.style.filled = true ∧
        ∃ vertices, s.geometry = .polyline vertices ∧ triangulate vertices = .ok fan) ∧
    ∀ (v : View α) (rasterizer : Rasterizer σ) (diagram : Diagram α) (editing : Option (Shape α))
      (state : σ), (∀ s ∈ diagram.shapes, s.Built) → (∀ s ∈ editing, s.Built) →
        Scene.build? v rasterizer diagram.shapes editing state =
          some (Scene.build v rasterizer diagram.shapes editing state) :=
  ⟨fun _ hs => ⟨hs.current, hs.current.triangles_eq_some_iff⟩,
    fun v rasterizer _ _ state hshapes hediting =>
      Scene.build?_eq v rasterizer (fun s hs => (hshapes s hs).current)
        (fun s hs => (hediting s hs).current) state⟩

end Draftboard
