import Mathlib.Data.List.Forall2
import Draftboard.Proofs.Scene.Drawn

/-!
# Draftboard.Proofs.Scene.Again

Drawing a scene, and drawing it again.

* Drawing fills in what a shape keeps and touches nothing else of it (`Shape.FilledIn`): triangles and
  images that are there stay, and a label between dollar signs has an image afterwards.
* A shape that has been drawn yields the same primitives when it is drawn again, by whatever rasterizer,
  and stays as it is (`View.drawShape_again`). Its triangles are kept, or its polygon has none and is
  found to have none once more; its image is kept, be it a placeholder.
* `Rasterizer.listening` writes down what a rasterizer is asked for. A scene asks for the labels that have
  no image, for each of them once and in drawing order (`Scene.build_listening`).
* Shapes are drawn one after another, each with the state that the one before left
  (`Scene.build_append`).
-/

namespace Draftboard

variable {σ τ α : Type}

/-! ### What is asked for -/

/-- The image that a text is given: the one that is made, or the placeholder. -/
def Rasterizer.answer (rasterizer : Rasterizer σ) (text : String) (state : σ) : Raster :=
  let (made, next) := rasterizer.rasterize text state
  made.getD (rasterizer.placeholder next)

/-- The rasterizer with a list of the texts that it has been asked for. -/
def Rasterizer.listening (rasterizer : Rasterizer σ) : Rasterizer (σ × List String) where
  rasterize text state :=
    let (made, next) := rasterizer.rasterize text state.1
    (made, next, state.2 ++ [text])
  placeholder state := rasterizer.placeholder state.1

/-- The text of a label between dollar signs that has no image yet. -/
def Shape.missing? (s : Shape α) : Option String :=
  match s.geometry with
  | .label _ text => if Geometry.isMath text && s.raster.isNone then some text else none
  | _ => none

theorem Shape.missing?_of_kind {s : Shape α} (h : s.kind ≠ .label) : s.missing? = none := by
  rw [missing?]
  split
  · rename_i hlabel
    exact absurd (by rw [kind, hlabel]; rfl) h
  · rfl

theorem Shape.missing?_eq_some_iff {s : Shape α} {text : String} :
    s.missing? = some text ↔
      (∃ anchor, s.geometry = .label anchor text) ∧ Geometry.isMath text = true ∧ s.raster = none := by
  rw [missing?]
  split
  · rename_i anchor lettering hlabel
    rw [hlabel, Option.ite_none_right_eq_some, Bool.and_eq_true_iff, Option.isNone_iff_eq_none]
    constructor
    · intro ⟨⟨hmath, hnone⟩, htext⟩
      obtain rfl := Option.some.inj htext
      exact ⟨⟨anchor, rfl⟩, hmath, hnone⟩
    · intro ⟨⟨_, h⟩, hmath, hnone⟩
      obtain ⟨-, rfl⟩ := Geometry.label.inj h
      exact ⟨⟨hmath, hnone⟩, rfl⟩
  · rename_i hother
    exact iff_of_false nofun fun ⟨⟨anchor, h⟩, _⟩ => hother anchor text h

theorem Shape.filterMap_missing?_cons (s : Shape α) (rest : List (Shape α)) :
    (s :: rest).filterMap missing? = s.missing?.toList ++ rest.filterMap missing? := by
  cases hmissing : s.missing? <;> simp [hmissing]

/-- A label between dollar signs that lacks nothing has its image. -/
theorem Shape.raster_ne_none_of_missing? {s : Shape α} (h : s.missing? = none)
    (hmath : s.geometry.isMathLabel = true) : s.raster ≠ none := by
  intro hnone
  cases hgeometry : s.geometry with
  | label anchor text =>
    rw [hgeometry] at hmath
    rw [missing?_eq_some_iff.2 ⟨⟨anchor, hgeometry⟩, hmath, hnone⟩] at h
    cases h
  | _ =>
    rw [hgeometry] at hmath
    cases hmath

namespace View

/-- A label that lacks its image is given the answer of the rasterizer. -/
theorem labelRaster_of_missing {s : Shape α} {text : String} (h : s.missing? = some text)
    (rasterizer : Rasterizer σ) (state : σ) :
    let image := rasterizer.answer text state
    labelRaster rasterizer s state =
      (some image, { s with raster := some image }, (rasterizer.rasterize text state).2) := by
  obtain ⟨⟨anchor, hlabel⟩, hmath, hnone⟩ := Shape.missing?_eq_some_iff.1 h
  rw [labelRaster, hlabel]
  dsimp only
  rw [if_pos hmath, hnone]
  rfl

/-- Of any other shape an image is shown as it is, and nothing is asked for. -/
theorem labelRaster_of_not_missing {s : Shape α} (h : s.missing? = none) (rasterizer : Rasterizer σ)
    (state : σ) :
    labelRaster rasterizer s state =
      (if s.geometry.isMathLabel then s.raster else none, s, state) := by
  have hraster := s.raster_ne_none_of_missing? h
  rw [labelRaster]
  split
  · rename_i hlabel
    rw [hlabel] at hraster ⊢
    split
    · rename_i hmath
      obtain ⟨image, himage⟩ := Option.ne_none_iff_exists'.1 (hraster hmath)
      rw [himage]
      exact congrArg (·, s, state) (if_pos hmath).symm
    · rename_i hplain
      exact congrArg (·, s, state) (if_neg hplain).symm
  · rename_i hother
    cases hgeometry : s.geometry with
    | label anchor text => exact absurd hgeometry (hother anchor text)
    | _ => rfl

theorem labelRaster_listening (rasterizer : Rasterizer σ) (s : Shape α) (state : σ)
    (asked : List String) :
    let drawn := labelRaster rasterizer s state
    labelRaster rasterizer.listening s (state, asked) =
      (drawn.1, drawn.2.1, drawn.2.2, asked ++ s.missing?.toList) := by
  cases hmissing : s.missing? with
  | none =>
    rw [labelRaster_of_not_missing hmissing, labelRaster_of_not_missing hmissing, Option.toList_none,
      List.append_nil]
  | some text =>
    rw [labelRaster_of_missing hmissing, labelRaster_of_missing hmissing]
    rfl

/-- A label that has been drawn lacks nothing. -/
theorem missing?_labelRaster (rasterizer : Rasterizer σ) (s : Shape α) (state : σ) :
    (labelRaster rasterizer s state).2.1.missing? = none := by
  cases hmissing : s.missing? with
  | none => rwa [labelRaster_of_not_missing hmissing]
  | some text =>
    rw [labelRaster_of_missing hmissing, Option.eq_none_iff_forall_ne_some]
    intro text' htext
    cases (Shape.missing?_eq_some_iff.1 htext).2.2

/-- Drawn again, a label shows the same image and asks for none. -/
theorem labelRaster_again (rasterizer : Rasterizer σ) (other : Rasterizer τ) (s : Shape α) (state : σ)
    (state' : τ) :
    let drawn := labelRaster rasterizer s state
    labelRaster other drawn.2.1 state' = (drawn.1, drawn.2.1, state') := by
  dsimp only
  rw [labelRaster_of_not_missing (missing?_labelRaster rasterizer s state)]
  cases hmissing : s.missing? with
  | none => rw [labelRaster_of_not_missing hmissing]
  | some text =>
    obtain ⟨⟨anchor, hlabel⟩, hmath, -⟩ := Shape.missing?_eq_some_iff.1 hmissing
    have hmathLabel : s.geometry.isMathLabel = true := by
      rw [hlabel]
      exact hmath
    rw [labelRaster_of_missing hmissing]
    exact congrArg (·, _, state') (if_pos hmathLabel)

end View

/-! ### What is filled in -/

/-- The second shape is the first one with what it keeps filled in: nothing that is there is replaced,
and a label between dollar signs has its image. -/
structure Shape.FilledIn (s t : Shape α) : Prop where
  geometry_eq : t.geometry = s.geometry
  style_eq : t.style = s.style
  fan : ∀ fan, s.fan = some fan → t.fan = some fan
  raster : ∀ image, s.raster = some image → t.raster = some image
  labelled : t.geometry.isMathLabel = true → t.raster ≠ none

theorem Shape.FilledIn.forall_labelled {before after : List (Shape α)}
    (h : List.Forall₂ Shape.FilledIn before after) :
    ∀ t ∈ after, t.geometry.isMathLabel = true → t.raster ≠ none := by
  induction h with
  | nil => exact List.forall_mem_nil _
  | cons hfilled _ ih => exact List.forall_mem_cons.2 ⟨hfilled.labelled, ih⟩

variable [Scalar α]

namespace Shape

/-- Asking for the triangles leaves the shape as it is, or it keeps the triangles that were missing. -/
theorem triangles_cases (s : Shape α) :
    s.triangles.2 = s ∨ ∃ vertices fan, s.style.filled = true ∧ s.geometry = .polyline vertices ∧
      s.fan = none ∧ s.triangles = (some fan, { s with fan := some fan }) := by
  rw [triangles]
  split
  · rename_i vertices hfilled hgeometry
    split
    · exact .inl rfl
    · rename_i hnone
      split
      · rename_i fan _
        exact .inr ⟨vertices, fan, hfilled, hgeometry, hnone, rfl⟩
      · exact .inl rfl
  · exact .inl rfl

/-- The image has no part in the triangles. -/
theorem triangles_raster (s : Shape α) (raster : Option Raster) :
    ({ s with raster } : Shape α).triangles.1 = s.triangles.1 := by
  simp only [triangles]
  split
  · split
    · rfl
    · split <;> rfl
  · rfl

/-- Asking again gives the same triangles, or none again. -/
theorem triangles_again (s : Shape α) : s.triangles.2.triangles = s.triangles := by
  rcases s.triangles_cases with hsame | ⟨vertices, fan, hfilled, hgeometry, -, hkept⟩
  · rw [hsame]
  · rw [hkept, triangles]
    dsimp only
    rw [hfilled, hgeometry]

end Shape

namespace View

/-- The shape that filling leaves is the one that asking for the triangles leaves, if they are asked
for. -/
theorem snd_fill (v : View α) (offset : Point α) (s : Shape α) :
    (v.fill offset s).2 = if s.style.filled && !v.wireframe then s.triangles.2 else s := by
  rw [fill]
  split
  · split
    · rename_i h
      rw [h]
    · rename_i h
      rw [h]
  · rfl

theorem fill_again (v : View α) (offset : Point α) (s : Shape α) :
    v.fill offset (v.fill offset s).2 = v.fill offset s := by
  rw [snd_fill]
  split
  · rename_i hfilled
    have hstyle := s.derived_triangles.style_eq
    rw [fill, fill, s.triangles_again, hstyle, if_pos hfilled, if_pos hfilled]
  · rfl

/-- The shape that drawing leaves: its triangles have been asked for if it is filled, and its image is the
answer for the text that was missing, or the one that it had. -/
theorem shape_drawShape (v : View α) (rasterizer : Rasterizer σ) (offset : Point α) (s : Shape α)
    (state : σ) : (v.drawShape rasterizer offset s state).shape =
      { if s.style.filled && !v.wireframe then s.triangles.2 else s with
        raster := (s.missing?.map fun text => rasterizer.answer text state).or s.raster } := by
  by_cases hkind : s.kind = .label
  · obtain ⟨anchor, text, hlabel⟩ := Shape.exists_label hkind
    have hnone : s.triangles.2 = s := by
      rw [Shape.triangles_of_kind (by rw [hkind]; nofun)]
    rw [v.drawShape_label rasterizer offset hlabel, hnone, ite_self]
    cases hmissing : s.missing? with
    | none => rw [labelRaster_of_not_missing hmissing, Option.map_none, Option.none_or]
    | some text => rw [labelRaster_of_missing hmissing, Option.map_some, Option.some_or]
  · rw [v.drawShape_eq rasterizer offset hkind, Shape.missing?_of_kind hkind, Option.map_none,
      Option.none_or, snd_fill]
    split
    · rcases s.triangles_cases with hsame | ⟨_, _, -, -, -, hkept⟩
      · rw [hsame]
      · rw [hkept]
    · rfl

theorem filledIn_drawShape (v : View α) (rasterizer : Rasterizer σ) (offset : Point α) (s : Shape α)
    (state : σ) : s.FilledIn (v.drawShape rasterizer offset s state).shape := by
  have hderived := v.derived_drawShape rasterizer offset s state
  have hgeometry := hderived.geometry_eq
  refine ⟨hgeometry, hderived.style_eq, fun fan hfan => ?_, fun image himage => ?_, fun hmath => ?_⟩
  · rw [shape_drawShape]
    dsimp only
    split
    · rcases s.triangles_cases with hsame | ⟨_, _, -, -, hnone, -⟩
      · rw [hsame, hfan]
      · rw [hnone] at hfan
        cases hfan
    · exact hfan
  · rw [shape_drawShape]
    dsimp only
    cases hmissing : s.missing? with
    | none => rwa [Option.map_none, Option.none_or]
    | some text =>
      rw [(Shape.missing?_eq_some_iff.1 hmissing).2.2] at himage
      cases himage
  · rw [hgeometry] at hmath
    rw [shape_drawShape]
    dsimp only
    cases hmissing : s.missing? with
    | none =>
      rw [Option.map_none, Option.none_or]
      exact Shape.raster_ne_none_of_missing? hmissing hmath
    | some text => nofun

/-- Drawn again, by whatever rasterizer, a shape shows the same and stays as it is. -/
theorem drawShape_again (v : View α) (rasterizer : Rasterizer σ) (other : Rasterizer τ)
    (offset : Point α) (s : Shape α) (state : σ) (state' : τ) :
    let drawn := v.drawShape rasterizer offset s state
    v.drawShape other offset drawn.shape state' = ⟨drawn.primitives, drawn.shape, state'⟩ := by
  have hfilled := v.filledIn_drawShape rasterizer offset s state
  dsimp only
  by_cases hkind : s.kind = .label
  · obtain ⟨anchor, text, hlabel⟩ := Shape.exists_label hkind
    have hagain := labelRaster_again rasterizer other s state state'
    rw [v.drawShape_label other offset (hfilled.geometry_eq.trans hlabel), hfilled.style_eq,
      v.drawShape_label rasterizer offset hlabel]
    dsimp only
    rw [hagain]
  · have hkind' : (v.drawShape rasterizer offset s state).shape.kind ≠ .label := by
      rwa [Shape.kind, hfilled.geometry_eq]
    rw [v.drawShape_eq other offset hkind', hfilled.style_eq, hfilled.geometry_eq,
      v.drawShape_eq rasterizer offset hkind]
    dsimp only
    rw [v.fill_again]

theorem drawShape_listening (v : View α) (rasterizer : Rasterizer σ) (offset : Point α) (s : Shape α)
    (state : σ) (asked : List String) :
    let drawn := v.drawShape rasterizer offset s state
    v.drawShape rasterizer.listening offset s (state, asked) =
      ⟨drawn.primitives, drawn.shape, drawn.state, asked ++ s.missing?.toList⟩ := by
  dsimp only
  by_cases hkind : s.kind = .label
  · obtain ⟨anchor, text, hlabel⟩ := Shape.exists_label hkind
    rw [v.drawShape_label _ offset hlabel, v.drawShape_label _ offset hlabel, labelRaster_listening]
  · rw [v.drawShape_eq _ offset hkind, v.drawShape_eq _ offset hkind, Shape.missing?_of_kind hkind,
      Option.toList_none, List.append_nil]

/-- The second shape is what drawing makes of the first one, wherever it is drawn. -/
def Draws (v : View α) (rasterizer : Rasterizer σ) (s t : Shape α) : Prop :=
  ∃ offset state, t = (v.drawShape rasterizer offset s state).shape

theorem Draws.filledIn {v : View α} {rasterizer : Rasterizer σ} {s t : Shape α}
    (h : v.Draws rasterizer s t) : s.FilledIn t := by
  obtain ⟨offset, state, rfl⟩ := h
  exact v.filledIn_drawShape rasterizer offset s state

/-! #### The shape that is being made -/

/-- Where the shape that is being made is drawn. -/
def editingOffset (v : View α) : Point α :=
  if v.mode = .droppedPolygon then v.pointer else Point.origin

/-- The shape that is being made is drawn like any other; the aids that are drawn on top of it depend on
its geometry and its style. -/
theorem drawEditing_eq (v : View α) (rasterizer : Rasterizer σ) (s : Shape α) (state : σ) :
    let drawn := v.drawShape rasterizer v.editingOffset s state
    v.drawEditing rasterizer s state = { drawn with primitives := drawn.primitives ++
      if v.mode = .droppedPolygon then [] else v.constructionAids s.style s.geometry } := by
  rw [drawEditing, editingOffset]
  dsimp only
  split
  · rw [List.append_nil]
  · rfl

theorem drawEditing_again (v : View α) (rasterizer : Rasterizer σ) (other : Rasterizer τ) (s : Shape α)
    (state : σ) (state' : τ) :
    let drawn := v.drawEditing rasterizer s state
    v.drawEditing other drawn.shape state' = ⟨drawn.primitives, drawn.shape, state'⟩ := by
  have hfilled := v.filledIn_drawShape rasterizer v.editingOffset s state
  have hagain := v.drawShape_again rasterizer other v.editingOffset s state state'
  simp only [drawEditing_eq, hfilled.geometry_eq, hfilled.style_eq, hagain]

theorem drawEditing_listening (v : View α) (rasterizer : Rasterizer σ) (s : Shape α) (state : σ)
    (asked : List String) :
    let drawn := v.drawEditing rasterizer s state
    v.drawEditing rasterizer.listening s (state, asked) =
      ⟨drawn.primitives, drawn.shape, drawn.state, asked ++ s.missing?.toList⟩ := by
  simp only [drawEditing_eq, drawShape_listening]

end View

/-! ### Scenes -/

namespace Scene

theorem drawShapes_again (v : View α) (rasterizer : Rasterizer σ) (other : Rasterizer τ)
    (shapes : List (Shape α)) (state : σ) (state' : τ) :
    let drawn := drawShapes v rasterizer shapes state
    drawShapes v other drawn.2.1 state' = (drawn.1, drawn.2.1, state') := by
  induction shapes generalizing state with
  | nil => rfl
  | cons s rest ih =>
    have hshape := v.drawShape_again rasterizer other Point.origin s state state'
    have hrest := ih (v.drawShape rasterizer Point.origin s state).state
    simp only [drawShapes] at hshape hrest ⊢
    rw [hshape]
    dsimp only
    rw [hrest]

theorem drawShapes_listening (v : View α) (rasterizer : Rasterizer σ) (shapes : List (Shape α))
    (state : σ) (asked : List String) :
    let drawn := drawShapes v rasterizer shapes state
    drawShapes v rasterizer.listening shapes (state, asked) =
      (drawn.1, drawn.2.1, drawn.2.2, asked ++ shapes.filterMap Shape.missing?) := by
  induction shapes generalizing state asked with
  | nil => simp [drawShapes]
  | cons s rest ih =>
    simp only [drawShapes, View.drawShape_listening, ih, List.append_assoc,
      Shape.filterMap_missing?_cons]

theorem drawShapes_append (v : View α) (rasterizer : Rasterizer σ) (a b : List (Shape α)) (state : σ) :
    let first := drawShapes v rasterizer a state
    let second := drawShapes v rasterizer b first.2.2
    drawShapes v rasterizer (a ++ b) state = (first.1 ++ second.1, first.2.1 ++ second.2.1, second.2.2) := by
  induction a generalizing state with
  | nil => rfl
  | cons s rest ih => simp only [List.cons_append, drawShapes, ih, List.append_assoc]

theorem forall₂_drawShapes (v : View α) (rasterizer : Rasterizer σ) (shapes : List (Shape α))
    (state : σ) : List.Forall₂ (v.Draws rasterizer) shapes (drawShapes v rasterizer shapes state).2.1 := by
  induction shapes generalizing state with
  | nil => exact .nil
  | cons s rest ih => exact .cons ⟨Point.origin, state, rfl⟩ (ih _)

/-- The shapes of a scene are the shapes that it was built of, each drawn once. -/
theorem forall₂_build (v : View α) (rasterizer : Rasterizer σ) (shapes : List (Shape α))
    (editing : Option (Shape α)) (state : σ) :
    let scene := build v rasterizer shapes editing state
    List.Forall₂ (v.Draws rasterizer) shapes scene.shapes ∧
      List.Forall₂ (v.Draws rasterizer) editing.toList scene.editing.toList := by
  have hshapes := forall₂_drawShapes v rasterizer shapes state
  cases editing with
  | none => exact ⟨hshapes, .nil⟩
  | some s =>
    refine ⟨hshapes, .cons ⟨v.editingOffset, (drawShapes v rasterizer shapes state).2.2, ?_⟩ .nil⟩
    rw [View.drawEditing_eq]

/-- Built again, by whatever rasterizer, a scene is the same, and the rasterizer is not asked. -/
theorem build_again (v : View α) (rasterizer : Rasterizer σ) (other : Rasterizer τ)
    (shapes : List (Shape α)) (editing : Option (Shape α)) (state : σ) (state' : τ) :
    let scene := build v rasterizer shapes editing state
    build v other scene.shapes scene.editing state' =
      ⟨scene.primitives, scene.shapes, scene.editing, state'⟩ := by
  have hshapes := drawShapes_again v rasterizer other shapes state state'
  cases editing with
  | none => simp only [build, hshapes]
  | some s =>
    have hediting := v.drawEditing_again rasterizer other s
      (drawShapes v rasterizer shapes state).2.2 state'
    simp only [build, hshapes, hediting]

/-- A scene asks for what its shapes lack, once for each of them and in drawing order. -/
theorem build_listening (v : View α) (rasterizer : Rasterizer σ) (shapes : List (Shape α))
    (editing : Option (Shape α)) (state : σ) (asked : List String) :
    let scene := build v rasterizer shapes editing state
    build v rasterizer.listening shapes editing (state, asked) =
      ⟨scene.primitives, scene.shapes, scene.editing, scene.state,
        asked ++ (shapes ++ editing.toList).filterMap Shape.missing?⟩ := by
  have hshapes := drawShapes_listening v rasterizer shapes state asked
  cases editing with
  | none => simp only [build, hshapes, Option.toList_none, List.append_nil]
  | some s =>
    simp only [build, hshapes, View.drawEditing_listening, Option.toList_some, List.filterMap_append,
      Shape.filterMap_missing?_cons, List.filterMap_nil, List.append_nil, List.append_assoc]

/-- The scene of two diagrams is that of the first and then that of the second. -/
theorem build_append (v : View α) (rasterizer : Rasterizer σ) (a b : List (Shape α))
    (editing : Option (Shape α)) (state : σ) :
    let first := build v rasterizer a none state
    let second := build v rasterizer b editing first.state
    build v rasterizer (a ++ b) editing state =
      ⟨first.primitives ++ second.primitives, first.shapes ++ second.shapes, second.editing,
        second.state⟩ := by
  have hshapes := drawShapes_append v rasterizer a b state
  cases editing with
  | none => simp only [build, hshapes]
  | some s => simp only [build, hshapes, List.append_assoc]

end Scene

end Draftboard
