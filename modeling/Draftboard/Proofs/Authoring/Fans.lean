import Draftboard.Proofs.Authoring.Run
import Draftboard.Proofs.Scene.Checked

/-!
# Draftboard.Proofs.Authoring.Fans

The shapes of a session are made new and changed in the ways that shapes are changed, so the triangles
they keep are current, and no frame of a run reads a vertex that is not there.

`Session.Built` says this of the committed shapes and of the one that is being made. Each transition
keeps it, one lemma for each, and so does drawing (`Scene.built_build`). A run keeps it if the shapes
that its host hands over are built (`built_run`). What is left to break its drawing off is the size of a
circle or of a curve (`checkedRender_run`).
-/

namespace Draftboard

open Transition (Keeps)

/-! ### Drawing -/

namespace Shape.Built

variable {α : Type} [Scalar α] {s t : Shape α}

theorem getD {changed : Option (Shape α)} (h : s.Built) (ht : ∀ t, changed = some t → t.Built) :
    (changed.getD s).Built := by
  cases changed with
  | none => exact h
  | some t => exact ht t rfl

theorem pushVertex? {p : Point α} (h : s.Built) (ht : s.pushVertex? p = some t) : t.Built := by
  have hchange := h.change (.pushVertex p)
  rwa [Shape.change, ht] at hchange

theorem drag? {p : Point α} {handle : Option Handle} (h : s.Built) (ht : s.drag? p handle = some t) :
    t.Built := by
  rcases handle with _ | _ | _ | index
  · cases ht
  · obtain rfl := Option.some.inj ht
    exact h.change (.setStart p)
  · obtain rfl := Option.some.inj ht
    exact h.change (.setStop p)
  · have hchange := h.change (.setControl index p)
    have ht : s.setControl? index p = some t := ht
    rwa [Shape.change, ht] at hchange

end Shape.Built

section Drawing

variable {σ α : Type} [Scalar α]

namespace View

theorem built_fill (v : View α) (offset : Point α) {s : Shape α} (h : s.Built) :
    (v.fill offset s).2.Built := by
  have hasked : s.triangles.2.Built := h.change .triangles
  rw [fill]
  generalize s.triangles = asked at hasked ⊢
  obtain ⟨_ | fan, t⟩ := asked
  · split
    · exact hasked
    · exact h
  · split
    · exact hasked
    · exact h

theorem built_labelRaster (rasterizer : Rasterizer σ) {s : Shape α} (h : s.Built) (state : σ) :
    (labelRaster rasterizer s state).2.1.Built := by
  rw [labelRaster]
  split
  · split
    · split
      · exact h
      · exact h.change (.setRaster _)
    · exact h
  · exact h

theorem built_drawShape (v : View α) (rasterizer : Rasterizer σ) (offset : Point α) {s : Shape α}
    (h : s.Built) (state : σ) : (v.drawShape rasterizer offset s state).shape.Built := by
  have hfill := v.built_fill offset h
  rw [drawShape]
  dsimp only
  split
  · exact built_labelRaster rasterizer hfill state
  · exact hfill

theorem built_drawEditing (v : View α) (rasterizer : Rasterizer σ) {s : Shape α} (h : s.Built)
    (state : σ) : (v.drawEditing rasterizer s state).shape.Built := by
  rw [drawEditing]
  split
  · exact v.built_drawShape rasterizer _ h state
  · exact v.built_drawShape rasterizer _ h state

end View

namespace Scene

theorem built_drawShapes (v : View α) (rasterizer : Rasterizer σ) {shapes : List (Shape α)}
    (h : ∀ s ∈ shapes, s.Built) (state : σ) :
    ∀ s ∈ (drawShapes v rasterizer shapes state).2.1, s.Built := by
  induction shapes generalizing state with
  | nil => intro s hs; cases hs
  | cons s rest ih =>
    intro t ht
    rcases List.mem_cons.1 ht with rfl | ht
    · exact v.built_drawShape rasterizer _ (h s (by simp)) state
    · exact ih (fun u hu => h u (by simp [hu])) _ t ht

/-- Drawing leaves built shapes built. -/
theorem built_build (v : View α) (rasterizer : Rasterizer σ) {shapes : List (Shape α)}
    {editing : Option (Shape α)} (h : ∀ s ∈ shapes, s.Built) (h' : ∀ s ∈ editing, s.Built) (state : σ) :
    (∀ s ∈ (build v rasterizer shapes editing state).shapes, s.Built) ∧
      ∀ s ∈ (build v rasterizer shapes editing state).editing, s.Built := by
  have hshapes := built_drawShapes v rasterizer h state
  cases editing with
  | none => exact ⟨hshapes, fun s hs => by cases hs⟩
  | some s =>
    refine ⟨hshapes, fun t ht => ?_⟩
    obtain rfl := Option.some.inj ht
    exact v.built_drawEditing rasterizer (h' s rfl) _

end Scene

end Drawing

/-! ### Transitions -/

namespace Session

/-- The shapes of the session are built. -/
structure Built (s : Session) : Prop where
  diagram : ∀ shape ∈ s.diagram.shapes, shape.Built
  editing : ∀ shape ∈ s.editing, shape.Built

variable {s : Session}

/-- Nothing is being made any more. -/
theorem Built.idle {t : Session} (h : s.Built) (hdiagram : t.diagram = s.diagram)
    (hediting : t.editing = none) : t.Built := by
  refine ⟨hdiagram ▸ h.diagram, fun shape hshape => ?_⟩
  rw [hediting] at hshape
  cases hshape

/-- Another shape is being made. -/
theorem Built.making {t : Session} {shape : Shape Float} (h : s.Built)
    (hdiagram : t.diagram = s.diagram) (hediting : t.editing = some shape) (hshape : shape.Built) :
    t.Built := by
  refine ⟨hdiagram ▸ h.diagram, fun u hu => ?_⟩
  obtain rfl := Option.some.inj (hediting.symm.trans hu)
  exact hshape

theorem built_cancel : Keeps Built cancel := fun _ hs => hs.idle rfl rfl

theorem built_setMode (mode : Mode) : Keeps Built (setMode mode) := fun _ hs => hs.idle rfl rfl

theorem built_commit {shape : Shape Float} (hshape : shape.Built) : Keeps Built (commit shape) := by
  intro s hs
  refine ⟨fun t ht => ?_, hs.editing⟩
  rcases List.mem_append.1 ht with ht | ht
  · exact hs.diagram t ht
  · obtain rfl := List.mem_singleton.1 ht
    exact hshape

/-- The shape that is being made goes to the diagram. -/
theorem built_commit_making {shape : Shape Float} (hs : s.Built) (hshape : shape.Built) :
    (commit shape { s with editing := none }).1.Built :=
  built_commit hshape _ (hs.idle rfl rfl)

theorem built_beginDrop {polygon : Shape Float} (hpolygon : polygon.Built) :
    Keeps Built (beginDrop polygon) := by
  intro s hs
  rw [beginDrop]
  split
  · exact (built_setMode .droppedPolygon s hs).making rfl rfl hpolygon
  · exact hs

theorem built_replaceDiagram {shapes : List (Shape Float)} (h : ∀ shape ∈ shapes, shape.Built) :
    Keeps Built (replaceDiagram shapes) := fun _ hs => ⟨h, hs.editing⟩

theorem built_appendShapes {shapes : List (Shape Float)} (h : ∀ shape ∈ shapes, shape.Built) :
    Keeps Built (appendShapes shapes) := by
  intro s hs
  refine ⟨fun t ht => ?_, hs.editing⟩
  rcases List.mem_append.1 ht with ht | ht
  · exact hs.diagram t ht
  · exact h t ht

theorem built_followPointer : Keeps Built followPointer := by
  intro s hs
  rw [followPointer]
  split
  · rename_i shape hediting _
    exact hs.making rfl rfl ((hs.editing shape hediting).change (.setStop s.pointer))
  · rename_i shape hediting _
    exact hs.making rfl rfl ((hs.editing shape hediting).change (.setStop s.pointer))
  · rename_i shape hediting _
    split
    · exact hs.making rfl rfl (.new _ _)
    · exact hs.making rfl rfl ((hs.editing shape hediting).change (.setStart s.pointer))
  · exact hs

theorem built_finishAtPointer : Keeps Built finishAtPointer := by
  intro s hs
  rw [finishAtPointer]
  split
  · rename_i shape hediting
    exact built_commit_making hs ((hs.editing shape hediting).change (.setStop s.pointer))
  · exact hs

theorem built_closePolygon : Keeps Built closePolygon := by
  intro s hs
  rw [closePolygon]
  split
  · exact hs
  · rename_i shape hediting
    have hshape := hs.editing shape hediting
    refine built_commit_making hs (Shape.Built.change (.getD hshape fun t ht => ?_) (.restyle _))
    obtain ⟨first, -, hpush⟩ := Option.bind_eq_some_iff.1 ht
    exact hshape.pushVertex? hpush

theorem built_extendPolyline {shape : Shape Float} (hs : s.Built) (hshape : shape.Built) :
    (extendPolyline shape s).1.Built := by
  rw [extendPolyline]
  split
  · split
    · exact built_closePolygon s hs
    · exact hs
  · exact hs.making rfl rfl (hshape.change (.pushVertex s.pointer))

theorem built_finishPolyline : Keeps Built finishPolyline := by
  intro s hs
  rw [finishPolyline]
  split
  · exact hs
  · rename_i shape hediting
    split
    · exact built_commit_making hs (.new _ _)
    · exact built_commit_making hs (hs.editing shape hediting)
    · exact hs.idle rfl rfl

theorem built_placeDropped : Keeps Built placeDropped := by
  intro s hs
  rw [placeDropped]
  split
  · exact hs
  · rename_i polygon hediting
    have hpolygon := hs.editing polygon hediting
    exact (built_commit ((hpolygon.change (.translate s.pointer)).change (.restyle _))).andThen
      (built_setMode .polyline) _ (hs.idle rfl rfl)

theorem built_primaryClick : Keeps Built primaryClick := by
  intro s hs
  rw [primaryClick]
  split
  · exact hs.making rfl rfl (.new _ _)
  · exact hs.making rfl rfl (.new _ _)
  · exact built_finishAtPointer s hs
  · exact built_finishAtPointer s hs
  · exact hs.making rfl rfl (.new _ _)
  · rename_i shape _ hediting
    exact built_extendPolyline hs (hs.editing shape hediting)
  · exact hs.making rfl rfl (.new _ _)
  · exact hs
  · exact hs.making rfl rfl (.new _ _)
  · exact built_commit (.new _ _) s hs
  · exact built_placeDropped s hs

theorem built_secondaryClick : Keeps Built secondaryClick := by
  intro s hs
  rw [secondaryClick]
  split
  · exact built_finishPolyline s hs
  · exact built_setMode .polyline s hs
  · exact built_cancel s hs

theorem built_applyButtons (frame : Frame) : Keeps Built (applyButtons frame) := by
  intro s hs
  rw [applyButtons]
  split
  · exact built_primaryClick s hs
  · split
    · exact built_secondaryClick s hs
    · exact hs

theorem built_dragHandles (frame : Frame) : Keeps Built (dragHandles frame) := by
  intro s hs
  rw [dragHandles]
  split
  · rename_i shape _ hediting
    have hshape := hs.editing shape hediting
    split
    · exact hs.making rfl rfl (hshape.getD fun u hu => hshape.drag? hu)
    · exact ⟨hs.diagram, hs.editing⟩
  · exact hs

theorem built_commitKey : Keeps Built commitKey := by
  intro s hs
  rw [commitKey]
  split
  · exact built_finishAtPointer s hs
  · exact built_finishAtPointer s hs
  · exact built_finishPolyline s hs
  · rename_i shape _ hediting
    exact built_commit (hs.editing shape hediting) _ (hs.idle rfl rfl)
  · exact hs

theorem built_deleteLast : Keeps Built deleteLast := by
  intro s hs
  rw [deleteLast]
  split
  · exact hs
  · rename_i shape diagram hpop
    obtain ⟨-, rfl⟩ := Prod.mk.inj hpop
    exact ⟨fun t ht => hs.diagram t (List.dropLast_subset _ ht), hs.editing⟩

theorem built_clearAll : Keeps Built clearAll := by
  intro s hs
  rw [clearAll]
  split
  · exact hs
  · exact ⟨by simp [default], hs.editing⟩

theorem built_applyKeys (keys : List Key) (hs : s.Built) : (keys.foldl applyKey s).Built := by
  induction keys generalizing s with
  | nil => exact hs
  | cons key keys ih =>
    refine ih ?_
    cases key <;> exact ⟨hs.diagram, hs.editing⟩

theorem built_applyFrame (frame : Frame) (moved : Bool) : Keeps Built (applyFrame frame moved) := by
  intro s
  rw [applyFrame]
  exact (built_followPointer.guarded _).andThen ((built_applyButtons frame).andThen
    (((built_dragHandles frame).guarded _).andThen ((built_commitKey.guarded _).andThen
      ((built_deleteLast.guarded _).andThen (built_clearAll.guarded _))))) s

theorem built_tick (frame : Frame) : Keeps Built (tick frame) := by
  intro s hs
  have hpointer : ({ s with pointer := s.snapped frame } : Session).Built := ⟨hs.diagram, hs.editing⟩
  rw [tick]
  dsimp only
  split
  · exact hpointer
  · exact built_applyFrame frame _ _ (built_applyKeys frame.keys hpointer)

theorem built_render {σ : Type} (rasterizer : Rasterizer σ) (state : σ) (hs : s.Built) :
    (render rasterizer s state).2.1.Built := by
  obtain ⟨hshapes, hediting⟩ := Scene.built_build s.view rasterizer hs.diagram hs.editing state
  exact ⟨hshapes, hediting⟩

end Session

/-- The session is drawn, unless there is a crash. -/
theorem Session.checkedRender_eq {σ : Type} (rasterizer : Rasterizer σ) (s : Session) (state : σ) :
    s.checkedRender rasterizer state =
      orCrash (s.render rasterizer state) (Scene.crash? s.view s.diagram.shapes s.editing) := by
  rw [checkedRender, Scene.checkedBuild_eq]
  cases Scene.crash? s.view s.diagram.shapes s.editing <;> rfl

/-! ### Runs -/

/-- The shapes that the host hands over are built. -/
def Operation.OfBuilt : Operation → Prop
  | .beginDrop polygon => polygon.Built
  | .replaceDiagram shapes => ∀ shape ∈ shapes, shape.Built
  | .appendShapes shapes => ∀ shape ∈ shapes, shape.Built
  | _ => True

theorem Operation.perform_built {s : Session} {op : Operation} (hs : s.Built) (hop : op.OfBuilt) :
    (op.perform s).session.Built := by
  cases op with
  | tick frame => exact s.built_tick frame hs
  | setMode mode => exact s.built_setMode mode hs
  | setModeNamed name =>
    simp only [perform, Session.setModeNamed]
    cases Mode.named? name.toList with
    | none => exact hs
    | some mode => exact s.built_setMode mode hs
  | beginDrop polygon => exact s.built_beginDrop hop hs
  | replaceDiagram shapes => exact s.built_replaceDiagram hop hs
  | appendShapes shapes => exact s.built_appendShapes hop hs
  | render rasterizer state => exact Session.built_render rasterizer state hs
  | setSettings settings => exact ⟨hs.diagram, hs.editing⟩
  | setCamera camera => exact ⟨hs.diagram, hs.editing⟩
  | setViewport viewport => exact ⟨hs.diagram, hs.editing⟩

theorem built_run {ops : List Operation} (h : ∀ op ∈ ops, op.OfBuilt) : (run ops).session.Built := by
  induction ops using List.reverseRecOn with
  | nil => exact ⟨by simp [run, default], by simp [run]⟩
  | append_singleton ops op ih =>
    rw [run_concat]
    exact Operation.perform_built (ih fun o ho => h o (by simp [ho])) (h op (by simp))

/-- No frame of a run reads a vertex that is not there. -/
theorem build?_run {σ : Type} {ops : List Operation} (h : ∀ op ∈ ops, op.OfBuilt)
    (rasterizer : Rasterizer σ) (state : σ) :
    Scene.build? (run ops).session.view rasterizer (run ops).session.diagram.shapes
        (run ops).session.editing state =
      some (Scene.build (run ops).session.view rasterizer (run ops).session.diagram.shapes
        (run ops).session.editing state) :=
  Scene.build?_eq _ rasterizer (fun s hs => ((built_run h).diagram s hs).current)
    (fun s hs => ((built_run h).editing s hs).current) state

/-- So what is drawn after a run is broken off at a circle or a curve of too many points, if at all. -/
theorem checkedRender_run {σ : Type} {ops : List Operation} (h : ∀ op ∈ ops, op.OfBuilt)
    (rasterizer : Rasterizer σ) (state : σ) :
    (run ops).session.checkedRender rasterizer state ≠ .error .outOfRange := by
  rw [Session.checkedRender_eq, Ne, orCrash_eq_error_iff]
  exact Scene.crash?_ne_outOfRange _ (fun s hs => ((built_run h).diagram s hs).current)
    fun s hs => ((built_run h).editing s hs).current

end Draftboard
