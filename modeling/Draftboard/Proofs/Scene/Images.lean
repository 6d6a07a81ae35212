import Draftboard.Proofs.Scene.Drawn

/-!
# Draftboard.Proofs.Scene.Images

Which shapes hold which images, and what drawing does about it.

* `holders` counts the shapes that hold an image. Only labels hold one (`Shape.Labelled`), and drawing
  keeps it that way.
* `Rasterizer.recording` is a rasterizer that writes down its answers: the images it made, and the
  placeholders it gave for texts that it could not typeset. Drawing with it draws the same.
* Each answer goes to one shape, which held nothing (`Log.Explains`): the holders of an image after
  drawing are those before it and one for each time it was given (`Scene.build_recording`).
-/

namespace Draftboard

variable {σ α : Type}

/-! ### Holders -/

/-- How many of the shapes hold an image. -/
def holders (shapes : List (Shape α)) (image : Raster) : Nat :=
  shapes.countP fun s => s.raster == some image

@[simp] theorem holders_nil (image : Raster) : holders ([] : List (Shape α)) image = 0 := rfl

@[simp] theorem holders_append (xs ys : List (Shape α)) (image : Raster) :
    holders (xs ++ ys) image = holders xs image + holders ys image :=
  List.countP_append

theorem holders_cons (s : Shape α) (shapes : List (Shape α)) (image : Raster) :
    holders (s :: shapes) image = holders [s] image + holders shapes image :=
  holders_append [s] shapes image

/-- Who holds what depends on the images only. -/
theorem holders_congr {s t : Shape α} (h : t.raster = s.raster) (image : Raster) :
    holders [t] image = holders [s] image := by
  simp only [holders, List.countP_cons, List.countP_nil, h]

theorem holders_eq_zero {shapes : List (Shape α)} (h : ∀ s ∈ shapes, s.raster = none)
    (image : Raster) : holders shapes image = 0 := by
  refine List.countP_eq_zero.2 fun s hs => ?_
  rw [h s hs]
  simp

/-- A shape that holds an image is a label. -/
def Shape.Labelled (s : Shape α) : Prop := s.raster ≠ none → s.kind = .label

theorem Shape.Labelled.of_raster_eq_none {s : Shape α} (h : s.raster = none) : s.Labelled :=
  fun hne => absurd h hne

/-! ### Recorded answers -/

/-- The answers of a rasterizer. -/
structure Log where
  /-- The images that it made. -/
  made : List Raster := []
  /-- The placeholders that it gave, one for each text that it could not typeset. -/
  stood : List Raster := []

namespace Log

/-- All that was given to labels. -/
def answers (log : Log) : List Raster := log.made ++ log.stood

/-- One more answer. -/
def record (log : Log) (answer : Option Raster) (placeholder : Raster) : Log :=
  match answer with
  | some image => { log with made := log.made ++ [image] }
  | none => { log with stood := log.stood ++ [placeholder] }

theorem count_answers_record (log : Log) (answer : Option Raster) (placeholder image : Raster) :
    (log.record answer placeholder).answers.count image =
      log.answers.count image + [answer.getD placeholder].count image := by
  cases answer with
  | some made => simp only [record, answers, List.count_append, Option.getD_some]; omega
  | none => simp only [record, answers, List.count_append, Option.getD_none]; omega

/-- Going from one log to the other, the shapes took up what was given. -/
def Explains (log log' : Log) (before after : List (Shape α)) : Prop :=
  ∀ image, holders after image + log.answers.count image =
    holders before image + log'.answers.count image

theorem Explains.of_raster_eq (log : Log) {s t : Shape α} (h : t.raster = s.raster) :
    log.Explains log [s] [t] := fun image => by rw [holders_congr h]

theorem Explains.append {log log' log'' : Log} {before after before' after' : List (Shape α)}
    (h : log.Explains log' before after) (h' : log'.Explains log'' before' after') :
    log.Explains log'' (before ++ before') (after ++ after') := by
  intro image
  have := h image
  have := h' image
  rw [holders_append, holders_append]
  omega

end Log

/-- The rasterizer with a log of its answers. -/
def Rasterizer.recording (rasterizer : Rasterizer σ) : Rasterizer (σ × Log) where
  rasterize text state :=
    let (answer, next) := rasterizer.rasterize text state.1
    (answer, next, state.2.record answer (rasterizer.placeholder next))
  placeholder state := rasterizer.placeholder state.1

/-! ### One shape -/

namespace View

theorem labelRaster_recording (rasterizer : Rasterizer σ) (s : Shape α) (state : σ) (log : Log) :
    let drawn := labelRaster rasterizer s state
    ∃ log', labelRaster rasterizer.recording s (state, log) =
        (drawn.1, drawn.2.1, drawn.2.2, log') ∧ log.Explains log' [s] [drawn.2.1] := by
  unfold labelRaster
  dsimp only
  split
  · split
    · split
      · exact ⟨log, rfl, .of_raster_eq log rfl⟩
      -- The shape held nothing and is given the answer.
      · rename_i hnone
        refine ⟨_, rfl, fun image => ?_⟩
        rw [Log.count_answers_record]
        simp only [holders, List.countP_cons, List.countP_nil, hnone, List.count_cons,
          List.count_nil, Option.some_beq_some]
        simp only [reduceCtorEq, beq_iff_eq, if_false, Nat.zero_add]
        omega
    · exact ⟨log, rfl, .of_raster_eq log rfl⟩
  · exact ⟨log, rfl, .of_raster_eq log rfl⟩

theorem labelled_labelRaster (rasterizer : Rasterizer σ) {s : Shape α} (hs : s.Labelled)
    (state : σ) : (labelRaster rasterizer s state).2.1.Labelled := by
  unfold labelRaster
  split
  · rename_i hlabel
    split
    · split
      · exact hs
      · exact fun _ => congrArg Geometry.kind hlabel
    · exact hs
  · exact hs

variable [Scalar α]

theorem raster_fill (v : View α) (offset : Point α) (s : Shape α) :
    (v.fill offset s).2.raster = s.raster := by
  have htriangles : s.triangles.2.raster = s.raster := by
    unfold Shape.triangles
    split
    · split
      · rfl
      · split <;> rfl
    · rfl
  unfold fill
  split
  · split
    · rename_i h
      rw [h] at htriangles
      exact htriangles
    · rename_i h
      rw [h] at htriangles
      exact htriangles
  · rfl

theorem labelled_fill (v : View α) (offset : Point α) {s : Shape α} (hs : s.Labelled) :
    (v.fill offset s).2.Labelled := by
  intro hne
  rw [raster_fill] at hne
  exact (congrArg Geometry.kind (v.derived_fill offset s).geometry_eq).trans (hs hne)

theorem drawShape_recording (v : View α) (rasterizer : Rasterizer σ) (offset : Point α)
    (s : Shape α) (state : σ) (log : Log) :
    let drawn := v.drawShape rasterizer offset s state
    ∃ log', v.drawShape rasterizer.recording offset s (state, log) =
        ⟨drawn.primitives, drawn.shape, drawn.state, log'⟩ ∧ log.Explains log' [s] [drawn.shape] := by
  have hfill := v.raster_fill offset s
  unfold drawShape
  dsimp only
  generalize v.fill offset s = filled at hfill ⊢
  obtain ⟨filling, filled⟩ := filled
  split
  · obtain ⟨log', hlog, hexplains⟩ := labelRaster_recording rasterizer filled state log
    refine ⟨log', by rw [hlog], fun image => ?_⟩
    rw [← holders_congr hfill image]
    exact hexplains image
  · exact ⟨log, rfl, .of_raster_eq log hfill⟩

theorem labelled_drawShape (v : View α) (rasterizer : Rasterizer σ) (offset : Point α)
    {s : Shape α} (hs : s.Labelled) (state : σ) :
    (v.drawShape rasterizer offset s state).shape.Labelled := by
  have hfill := v.labelled_fill offset hs
  unfold drawShape
  dsimp only
  split
  · exact labelled_labelRaster rasterizer hfill state
  · exact hfill

theorem drawEditing_recording (v : View α) (rasterizer : Rasterizer σ) (s : Shape α) (state : σ)
    (log : Log) :
    let drawn := v.drawEditing rasterizer s state
    ∃ log', v.drawEditing rasterizer.recording s (state, log) =
        ⟨drawn.primitives, drawn.shape, drawn.state, log'⟩ ∧ log.Explains log' [s] [drawn.shape] := by
  unfold drawEditing
  split
  · exact v.drawShape_recording rasterizer _ s state log
  · obtain ⟨log', hlog, hexplains⟩ := v.drawShape_recording rasterizer Point.origin s state log
    exact ⟨log', by rw [hlog], hexplains⟩

theorem labelled_drawEditing (v : View α) (rasterizer : Rasterizer σ) {s : Shape α}
    (hs : s.Labelled) (state : σ) : (v.drawEditing rasterizer s state).shape.Labelled := by
  unfold drawEditing
  split
  · exact v.labelled_drawShape rasterizer _ hs state
  · exact v.labelled_drawShape rasterizer _ hs state

end View

/-! ### A scene -/

namespace Scene

variable [Scalar α]

theorem drawShapes_recording (v : View α) (rasterizer : Rasterizer σ) (shapes : List (Shape α))
    (state : σ) (log : Log) :
    let drawn := drawShapes v rasterizer shapes state
    ∃ log', drawShapes v rasterizer.recording shapes (state, log) =
        (drawn.1, drawn.2.1, drawn.2.2, log') ∧ log.Explains log' shapes drawn.2.1 := by
  induction shapes generalizing state log with
  | nil => exact ⟨log, rfl, fun _ => rfl⟩
  | cons s rest ih =>
    obtain ⟨between, hshape, hfirst⟩ := v.drawShape_recording rasterizer Point.origin s state log
    obtain ⟨log', hshapes, hrest⟩ :=
      ih (v.drawShape rasterizer Point.origin s state).state between
    refine ⟨log', ?_, hfirst.append hrest⟩
    rw [drawShapes, hshape]
    dsimp only
    rw [hshapes]
    rfl

theorem labelled_drawShapes (v : View α) (rasterizer : Rasterizer σ) {shapes : List (Shape α)}
    (h : ∀ s ∈ shapes, s.Labelled) (state : σ) :
    ∀ s ∈ (drawShapes v rasterizer shapes state).2.1, s.Labelled := by
  induction shapes generalizing state with
  | nil => exact h
  | cons s rest ih =>
    obtain ⟨hs, hrest⟩ := List.forall_mem_cons.1 h
    exact List.forall_mem_cons.2 ⟨v.labelled_drawShape rasterizer _ hs state, ih hrest _⟩

/-- Drawing with a log draws the same scene, and what it has logged went to shapes that held
nothing. -/
theorem build_recording (v : View α) (rasterizer : Rasterizer σ) (shapes : List (Shape α))
    (editing : Option (Shape α)) (state : σ) (log : Log) :
    let scene := build v rasterizer shapes editing state
    ∃ log', build v rasterizer.recording shapes editing (state, log) =
        ⟨scene.primitives, scene.shapes, scene.editing, scene.state, log'⟩ ∧
      log.Explains log' (shapes ++ editing.toList) (scene.shapes ++ scene.editing.toList) := by
  obtain ⟨between, hshapes, hfirst⟩ := drawShapes_recording v rasterizer shapes state log
  cases editing with
  | none =>
    refine ⟨between, ?_, hfirst.append fun _ => rfl⟩
    unfold build
    rw [hshapes]
  | some s =>
    obtain ⟨log', hediting, hlast⟩ :=
      v.drawEditing_recording rasterizer s (drawShapes v rasterizer shapes state).2.2 between
    refine ⟨log', ?_, hfirst.append hlast⟩
    unfold build
    rw [hshapes]
    dsimp only
    rw [hediting]

theorem labelled_build (v : View α) (rasterizer : Rasterizer σ) {shapes : List (Shape α)}
    {editing : Option (Shape α)} (h : ∀ s ∈ shapes ++ editing.toList, s.Labelled) (state : σ) :
    let scene := build v rasterizer shapes editing state
    ∀ s ∈ scene.shapes ++ scene.editing.toList, s.Labelled := by
  obtain ⟨hshapes, hediting⟩ := List.forall_mem_append.1 h
  refine List.forall_mem_append.2 ?_
  cases editing with
  | none => exact ⟨labelled_drawShapes v rasterizer hshapes state, hediting⟩
  | some s =>
    refine ⟨labelled_drawShapes v rasterizer hshapes state, fun t ht => ?_⟩
    obtain rfl := List.mem_singleton.1 ht
    exact v.labelled_drawEditing rasterizer (hediting s (List.mem_singleton.2 rfl)) _

end Scene

end Draftboard
