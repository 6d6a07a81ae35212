import Draftboard.Scene.Builder

/-!
# Draftboard.Proofs.Scene.Drawn

What drawing does to the shapes that are drawn: it keeps what it has worked out about them, and
changes nothing else. A shape that has been drawn is the shape before with some triangles and some
image (`Shape.Derived`).

What a drawing shows of a shape is its fill and then its outline (`View.drawShape_eq`), or its label
(`View.drawShape_label`).
-/

namespace Draftboard

/-- The shape with other triangles or another image. -/
def Shape.Derived {α : Type} (s t : Shape α) : Prop :=
  ∃ fan raster, t = { s with fan := fan, raster := raster }

namespace Shape.Derived

variable {α : Type} {s t u : Shape α}

theorem refl (s : Shape α) : s.Derived s := ⟨s.fan, s.raster, rfl⟩

theorem trans (h : s.Derived t) (h' : t.Derived u) : s.Derived u := by
  obtain ⟨_, _, rfl⟩ := h
  obtain ⟨fan, raster, rfl⟩ := h'
  exact ⟨fan, raster, rfl⟩

theorem geometry_eq (h : s.Derived t) : t.geometry = s.geometry := by
  obtain ⟨_, _, rfl⟩ := h
  rfl

theorem style_eq (h : s.Derived t) : t.style = s.style := by
  obtain ⟨_, _, rfl⟩ := h
  rfl

end Shape.Derived

theorem Shape.exists_label {α : Type} {s : Shape α} (h : s.kind = .label) :
    ∃ anchor text, s.geometry = .label anchor text := by
  rw [Shape.kind] at h
  cases hgeometry : s.geometry with
  | label anchor text => exact ⟨anchor, text, rfl⟩
  | _ =>
    rw [hgeometry] at h
    cases h

variable {σ α : Type} [Scalar α]

theorem Shape.derived_triangles (s : Shape α) : s.Derived s.triangles.2 := by
  unfold triangles
  split
  · split
    · exact .refl s
    · split
      · exact ⟨_, s.raster, rfl⟩
      · exact .refl s
  · exact .refl s

/-- Polylines only are made of triangles. -/
theorem Shape.triangles_of_kind {s : Shape α} (h : s.kind ≠ .polyline) : s.triangles = (none, s) := by
  rw [triangles]
  split
  · rename_i hpolyline
    exact absurd (by rw [Shape.kind, hpolyline]; rfl) h
  · rfl

namespace View

theorem derived_fill (v : View α) (offset : Point α) (s : Shape α) :
    s.Derived (v.fill offset s).2 := by
  unfold fill
  split
  · have hs := s.derived_triangles
    split
    · rename_i htriangles
      rw [htriangles] at hs
      exact hs
    · rename_i htriangles
      rw [htriangles] at hs
      exact hs
  · exact .refl s

omit [Scalar α] in
theorem derived_labelRaster (rasterizer : Rasterizer σ) (s : Shape α) (state : σ) :
    s.Derived (labelRaster rasterizer s state).2.1 := by
  unfold labelRaster
  split
  · split
    · split
      · exact .refl s
      · exact ⟨s.fan, _, rfl⟩
    · exact .refl s
  · exact .refl s

theorem derived_drawShape (v : View α) (rasterizer : Rasterizer σ) (offset : Point α) (s : Shape α)
    (state : σ) : s.Derived (v.drawShape rasterizer offset s state).shape := by
  have hfill := v.derived_fill offset s
  unfold drawShape
  dsimp only
  split
  · exact hfill.trans (derived_labelRaster rasterizer _ state)
  · exact hfill

/-- A shape other than a label is its fill and its outline, and asks for no image. -/
theorem drawShape_eq (v : View α) (rasterizer : Rasterizer σ) (offset : Point α) {s : Shape α}
    (h : s.kind ≠ .label) (state : σ) :
    v.drawShape rasterizer offset s state =
      ⟨(v.fill offset s).1 ++ v.outline offset s.style s.geometry, (v.fill offset s).2, state⟩ := by
  have hderived := v.derived_fill offset s
  rw [drawShape]
  dsimp only
  rw [hderived.geometry_eq, hderived.style_eq]
  split
  · rename_i hlabel
    exact absurd (by rw [Shape.kind, hlabel]; rfl) h
  · rfl

/-- A label is drawn at its anchor, with its image. -/
theorem drawShape_label (v : View α) (rasterizer : Rasterizer σ) (offset : Point α) {s : Shape α}
    {anchor : Point α} {text : String} (h : s.geometry = .label anchor text) (state : σ) :
    v.drawShape rasterizer offset s state =
      let made := labelRaster rasterizer s state
      ⟨[.label (v.toScreen (anchor + offset)) text made.1 (s.style.color.display v.light)], made.2.1,
        made.2.2⟩ := by
  have hfill : v.fill offset s = ([], s) := by
    rw [fill, Shape.triangles_of_kind (by simp [Shape.kind, h, Geometry.kind])]
    split <;> rfl
  have hstyle := (derived_labelRaster rasterizer s state).style_eq
  rw [drawShape, hfill]
  dsimp only
  rw [h]
  dsimp only
  rw [hstyle, List.nil_append]

theorem derived_drawEditing (v : View α) (rasterizer : Rasterizer σ) (s : Shape α) (state : σ) :
    s.Derived (v.drawEditing rasterizer s state).shape := by
  unfold drawEditing
  split
  · exact derived_drawShape v rasterizer _ s state
  · exact derived_drawShape v rasterizer _ s state

end View

namespace Scene

/-- The shape that is being made stays the same but for what is derived from it. -/
theorem map_geometry_build (v : View α) (rasterizer : Rasterizer σ) (shapes : List (Shape α))
    (editing : Option (Shape α)) (state : σ) :
    (build v rasterizer shapes editing state).editing.map Shape.geometry =
      editing.map Shape.geometry := by
  cases editing with
  | none => rfl
  | some s =>
    have hs := v.derived_drawEditing rasterizer s (drawShapes v rasterizer shapes state).2.2
    exact congrArg some hs.geometry_eq

end Scene

end Draftboard
