import Draftboard.Proofs.Authoring.Run

/-!
# Draftboard.Proofs.Authoring.Watched

Drawing a session does not disturb it.

* What a shape has derived is not looked at when the shape is changed. So a transition does the same
  to sessions that are `Alike`, that is, differ in nothing but what is derived from their shapes; only
  what it releases and whether it asks to be drawn may differ (`Transition.Blind`, one lemma for each).
* Drawing leaves a session that is alike (`Session.alike_render`).
* By induction over the operations, a run with drawings anywhere in between agrees with the run
  without them after every operation (`trace_agrees_watchedTrace`).
-/

namespace Draftboard

/-! ### Plain shapes -/

namespace Shape

variable {α : Type} {s t : Shape α}

/-- The shape with nothing derived from it. -/
def plain (s : Shape α) : Shape α := { geometry := s.geometry, style := s.style }

theorem Derived.plain_eq (h : s.Derived t) : s.plain = t.plain := by
  obtain ⟨fan, raster, rfl⟩ := h
  rfl

theorem derived_of_plain_eq (h : s.plain = t.plain) : s.Derived t := by
  obtain ⟨geometry, style, fan, raster⟩ := t
  obtain ⟨hgeometry, hstyle, -, -⟩ := Shape.mk.inj h
  exact ⟨fan, raster, by rw [hgeometry, hstyle]⟩

theorem kind_eq_of_plain_eq (h : s.plain = t.plain) : s.kind = t.kind := by
  obtain ⟨fan, raster, rfl⟩ := derived_of_plain_eq h
  rfl

/-- A change that may not apply leaves shapes of one plain form. -/
theorem plain_getD {changed changed' : Option (Shape α)} (hs : s.plain = t.plain)
    (h : changed.map plain = changed'.map plain) :
    (changed.getD s).plain = (changed'.getD t).plain := by
  rcases changed with _ | u <;> rcases changed' with _ | v
  · exact hs
  · cases h
  · cases h
  · exact Option.some.inj h

theorem map_plain_pushVertex? (h : s.plain = t.plain) (p : Point α) :
    (s.pushVertex? p).map plain = (t.pushVertex? p).map plain := by
  obtain ⟨fan, raster, rfl⟩ := derived_of_plain_eq h
  obtain ⟨geometry, style, _, _⟩ := s
  cases geometry <;> rfl

theorem map_plain_bind_pushVertex? (h : s.plain = t.plain) (p : Option (Point α)) :
    (p.bind s.pushVertex?).map plain = (p.bind t.pushVertex?).map plain := by
  cases p with
  | none => rfl
  | some p => exact map_plain_pushVertex? h p

theorem map_plain_drag? [Scalar α] (h : s.plain = t.plain) (p : Point α) (handle : Option Handle) :
    (s.drag? p handle).map plain = (t.drag? p handle).map plain := by
  obtain ⟨fan, raster, rfl⟩ := derived_of_plain_eq h
  rcases handle with _ | _ | _ | index
  · rfl
  · rfl
  · rfl
  · obtain ⟨geometry, style, _, _⟩ := s
    cases geometry with
    | curve start controls stop =>
      unfold drag? setControl?
      dsimp only
      split <;> rfl
    | line | circle | polyline | label => rfl

end Shape

/-! ### Sessions that are alike -/

/-- The actions other than releases and requests to redraw. -/
def authored (actions : List Action) : List Action :=
  actions.filter fun
    | .rasterReleased _ | .renderNeeded => false
    | _ => true

@[simp] theorem authored_append (first second : List Action) :
    authored (first ++ second) = authored first ++ authored second :=
  List.filter_append ..

@[simp] theorem authored_released (shape : Shape Float) : authored shape.released = [] := by
  unfold Shape.released
  cases shape.raster <;> rfl

@[simp] theorem authored_flatMap_released (shapes : List (Shape Float)) :
    authored (shapes.flatMap Shape.released) = [] := by
  induction shapes with
  | nil => rfl
  | cons shape rest ih => rw [List.flatMap_cons, authored_append, authored_released, ih]; rfl

@[simp] theorem authored_filter_renderNeeded (actions : List Action) :
    authored (actions.filter (· ≠ .renderNeeded)) = authored actions := by
  unfold authored
  rw [List.filter_filter]
  refine List.filter_congr fun action _ => ?_
  cases action <;> rfl

@[simp] theorem authored_redraw (redraw : Bool) :
    authored (if redraw then [.renderNeeded] else []) = [] := by
  cases redraw <;> rfl

namespace Session

/-- Two sessions that differ in nothing but what is derived from their shapes. -/
structure Alike (s t : Session) : Prop where
  settings : s.settings = t.settings
  camera : s.camera = t.camera
  viewport : s.viewport = t.viewport
  mode : s.mode = t.mode
  drag : s.drag = t.drag
  pointer : s.pointer = t.pointer
  /-- The geometries and styles of the committed shapes are the same, in order. -/
  diagram : s.diagram.shapes.map Shape.plain = t.diagram.shapes.map Shape.plain
  /-- And so are those of the shape that is being made. -/
  editing : s.editing.map Shape.plain = t.editing.map Shape.plain

namespace Alike

variable {s t u : Session}

theorem refl (s : Session) : s.Alike s := ⟨rfl, rfl, rfl, rfl, rfl, rfl, rfl, rfl⟩

theorem symm (h : s.Alike t) : t.Alike s where
  settings := h.settings.symm
  camera := h.camera.symm
  viewport := h.viewport.symm
  mode := h.mode.symm
  drag := h.drag.symm
  pointer := h.pointer.symm
  diagram := h.diagram.symm
  editing := h.editing.symm

theorem trans (h : s.Alike t) (h' : t.Alike u) : s.Alike u where
  settings := h.settings.trans h'.settings
  camera := h.camera.trans h'.camera
  viewport := h.viewport.trans h'.viewport
  mode := h.mode.trans h'.mode
  drag := h.drag.trans h'.drag
  pointer := h.pointer.trans h'.pointer
  diagram := h.diagram.trans h'.diagram
  editing := h.editing.trans h'.editing

/-- Alike sessions agree by definition but for their shapes. -/
theorem exists_eq (h : s.Alike t) :
    ∃ diagram editing, t = { s with diagram := diagram, editing := editing } := by
  obtain ⟨diagram, settings, camera, viewport, mode, editing, drag, pointer⟩ := t
  obtain ⟨hsettings, hcamera, hviewport, hmode, hdrag, hpointer, -, -⟩ := h
  exact ⟨diagram, editing, by rw [hsettings, hcamera, hviewport, hmode, hdrag, hpointer]⟩

theorem isNone_editing (h : s.Alike t) : s.editing.isNone = t.editing.isNone := by
  simpa using congrArg Option.isNone h.editing

theorem isSome_editing (h : s.Alike t) : s.editing.isSome = t.editing.isSome := by
  simpa using congrArg Option.isSome h.editing

theorem size_diagram (h : s.Alike t) : s.diagram.size = t.diagram.size := by
  simpa [Diagram.size] using congrArg List.length h.diagram

end Alike

end Session

/-! ### Transitions -/

namespace Transition

open Session (Alike)

/-- Two outcomes that differ in nothing but what is derived, releases and requests to redraw. -/
structure Agrees (first second : Session × List Action) : Prop where
  alike : first.1.Alike second.1
  authored_eq : authored first.2 = authored second.2

/-- A transition that does not look at what is derived from shapes. -/
def Blind (t : Transition) : Prop := ∀ s s' : Session, s.Alike s' → Agrees (t s) (t s')

variable {t u : Transition}

theorem Blind.skip : Blind skip := fun _ _ h => ⟨h, rfl⟩

theorem Agrees.andThen {t' : Transition} {s s' : Session} (h : Agrees (t s) (t' s'))
    (hu : Blind u) : Agrees (t.andThen u s) (t'.andThen u s') := by
  have hsecond := hu _ _ h.alike
  refine ⟨hsecond.alike, ?_⟩
  simp only [andThen_apply, authored_append, h.authored_eq, hsecond.authored_eq]

theorem Blind.andThen (ht : Blind t) (hu : Blind u) : Blind (t.andThen u) :=
  fun s s' h => (ht s s' h).andThen hu

theorem Blind.guarded (ht : Blind t) {condition : Session → Bool}
    (hcondition : ∀ s s' : Session, s.Alike s' → condition s = condition s') :
    Blind (t.guarded condition) := by
  intro s s' h
  unfold Transition.guarded
  rw [hcondition s s' h]
  split
  · exact ht s s' h
  · exact ⟨h, rfl⟩

end Transition

namespace Session

open Transition (Agrees Blind)

variable {s s' : Session}

/-- Other shapes that are being made, of one plain form. -/
theorem Alike.making (h : s.Alike s') {making making' : Option (Shape Float)}
    (hmaking : making.map Shape.plain = making'.map Shape.plain) :
    Alike { s with editing := making } { s' with editing := making' } :=
  { h with editing := hmaking }

/-- Sessions that are alike make nothing, or shapes of one plain form. -/
theorem Alike.cases_editing (h : s.Alike s') : (s.editing = none ∧ s'.editing = none) ∨
    ∃ shape shape', s.editing = some shape ∧ s'.editing = some shape' ∧
      shape.plain = shape'.plain := by
  have hediting := h.editing
  rcases hs : s.editing with _ | shape <;> rcases hs' : s'.editing with _ | shape'
  · exact .inl ⟨rfl, rfl⟩
  · rw [hs, hs'] at hediting; cases hediting
  · rw [hs, hs'] at hediting; cases hediting
  · rw [hs, hs'] at hediting
    exact .inr ⟨shape, shape', rfl, rfl, Option.some.inj hediting⟩

/-- Shapes of one plain form are committed alike. -/
theorem agrees_commit {shape shape' : Shape Float} (hshape : shape.plain = shape'.plain)
    (h : s.Alike s') : Agrees (commit shape s) (commit shape' s') where
  alike := { h with diagram := by simp [commit, h.diagram, hshape] }
  authored_eq := by
    have hkind := Shape.kind_eq_of_plain_eq hshape
    simp only [commit, h.size_diagram, hkind]

theorem blind_cancel : Blind cancel := by
  intro s s' h
  refine ⟨{ h with drag := rfl, editing := rfl }, ?_⟩
  rcases h.cases_editing with ⟨hs, hs'⟩ | ⟨shape, shape', hs, hs', -⟩
  · simp [cancel, hs, hs']
  · simp [cancel, hs, hs']

theorem blind_setMode (mode : Mode) : Blind (setMode mode) := by
  intro s s' h
  have hcancel := blind_cancel s s' h
  refine ⟨{ hcancel.alike with mode := rfl }, ?_⟩
  have hmode : (cancel s).1.mode = (cancel s').1.mode := hcancel.alike.mode
  simp only [setMode, authored_append, hcancel.authored_eq, hmode]

theorem blind_beginDrop (polygon : Shape Float) : Blind (beginDrop polygon) := by
  intro s s' h
  unfold beginDrop
  split
  · have hmode := blind_setMode .droppedPolygon s s' h
    exact ⟨hmode.alike.making rfl, hmode.authored_eq⟩
  · exact ⟨h, rfl⟩

theorem blind_replaceDiagram (shapes : List (Shape Float)) : Blind (replaceDiagram shapes) := by
  intro s s' h
  exact ⟨{ h with diagram := rfl }, by simp [replaceDiagram]⟩

theorem blind_appendShapes (shapes : List (Shape Float)) : Blind (appendShapes shapes) := by
  intro s s' h
  exact ⟨{ h with diagram := by simp [appendShapes, h.diagram] }, rfl⟩

/-- The keys for the view change nothing that differs. -/
theorem Alike.applyKey (h : s.Alike s') (key : Key) :
    (s.applyKey key).Alike (s'.applyKey key) := by
  obtain ⟨diagram, editing, rfl⟩ := h.exists_eq
  cases key <;> exact ⟨rfl, rfl, rfl, rfl, rfl, rfl, h.diagram, h.editing⟩

theorem Alike.applyKeys (h : s.Alike s') (keys : List Key) :
    (keys.foldl Session.applyKey s).Alike (keys.foldl Session.applyKey s') := by
  induction keys generalizing s s' with
  | nil => exact h
  | cons key keys ih => exact ih (h.applyKey key)

theorem blind_followPointer : Blind followPointer := by
  intro s s' h
  obtain ⟨diagram', editing', rfl⟩ := h.exists_eq
  obtain ⟨diagram, settings, camera, viewport, mode, editing, drag, pointer⟩ := s
  rcases h.cases_editing with ⟨(rfl : editing = none), (rfl : editing' = none)⟩ |
    ⟨shape, shape', (rfl : editing = _), (rfl : editing' = _), hshape⟩
  · exact ⟨h, rfl⟩
  · obtain ⟨fan, raster, rfl⟩ := Shape.derived_of_plain_eq hshape
    cases mode with
    | line | circle => exact ⟨h.making rfl, rfl⟩
    | label =>
      unfold followPointer
      dsimp only
      split
      · exact ⟨h.making rfl, by simp⟩
      · exact ⟨h.making rfl, rfl⟩
    | polyline | curve | droppedPolygon => exact ⟨h, rfl⟩

theorem blind_finishAtPointer : Blind finishAtPointer := by
  intro s s' h
  obtain ⟨diagram', editing', rfl⟩ := h.exists_eq
  unfold finishAtPointer
  rcases h.cases_editing with ⟨hs, hs'⟩ | ⟨shape, shape', hs, hs', hshape⟩
  · rw [hs, hs']
    exact ⟨h, rfl⟩
  · obtain ⟨fan, raster, rfl⟩ := Shape.derived_of_plain_eq hshape
    rw [hs, hs']
    exact agrees_commit rfl (h.making rfl)

theorem blind_closePolygon : Blind closePolygon := by
  intro s s' h
  obtain ⟨diagram', editing', rfl⟩ := h.exists_eq
  unfold closePolygon
  rcases h.cases_editing with ⟨hs, hs'⟩ | ⟨shape, shape', hs, hs', hshape⟩
  · rw [hs, hs']
    exact ⟨h, rfl⟩
  · rw [hs, hs']
    refine agrees_commit ?_ (h.making rfl)
    -- Both are closed at the first vertex, if they have one.
    obtain ⟨fan, raster, hderived⟩ := Shape.derived_of_plain_eq hshape
    have hclosed := Shape.plain_getD hshape (Shape.map_plain_bind_pushVertex? hshape
      shape.geometry.vertices.head?)
    obtain ⟨fan, raster, hclosed⟩ := Shape.derived_of_plain_eq hclosed
    rw [show shape'.geometry = shape.geometry by rw [hderived], hclosed]
    rfl

theorem blind_finishPolyline : Blind finishPolyline := by
  intro s s' h
  obtain ⟨diagram', editing', rfl⟩ := h.exists_eq
  unfold finishPolyline
  rcases h.cases_editing with ⟨hs, hs'⟩ | ⟨shape, shape', hs, hs', hshape⟩
  · rw [hs, hs']
    exact ⟨h, rfl⟩
  · obtain ⟨fan, raster, rfl⟩ := Shape.derived_of_plain_eq hshape
    rw [hs, hs']
    dsimp only
    -- A line, a polyline or nothing, as the vertices say.
    split
    · exact agrees_commit rfl (h.making rfl)
    · exact agrees_commit rfl (h.making rfl)
    · exact ⟨h.making rfl, rfl⟩

theorem blind_placeDropped : Blind placeDropped := by
  intro s s' h
  obtain ⟨diagram', editing', rfl⟩ := h.exists_eq
  unfold placeDropped
  rcases h.cases_editing with ⟨hs, hs'⟩ | ⟨shape, shape', hs, hs', hshape⟩
  · rw [hs, hs']
    exact ⟨h, rfl⟩
  · obtain ⟨fan, raster, rfl⟩ := Shape.derived_of_plain_eq hshape
    rw [hs, hs']
    refine Agrees.andThen ?_ (blind_setMode .polyline)
    exact agrees_commit rfl (h.making rfl)

/-- A vertex is added, or the ring is closed, whatever has been derived. -/
theorem agrees_extendPolyline {shape shape' : Shape Float} (hshape : shape.plain = shape'.plain)
    (h : s.Alike s') : Agrees (extendPolyline shape s) (extendPolyline shape' s') := by
  obtain ⟨diagram', editing', rfl⟩ := h.exists_eq
  have hpushed := Shape.plain_getD hshape (Shape.map_plain_pushVertex? hshape s.pointer)
  obtain ⟨fan, raster, rfl⟩ := Shape.derived_of_plain_eq hshape
  unfold extendPolyline
  dsimp only
  split
  · split
    · exact blind_closePolygon _ _ h
    · exact ⟨h, rfl⟩
  · exact ⟨h.making (congrArg some hpushed), rfl⟩

theorem blind_primaryClick : Blind primaryClick := by
  intro s s' h
  obtain ⟨diagram', editing', rfl⟩ := h.exists_eq
  obtain ⟨diagram, settings, camera, viewport, mode, editing, drag, pointer⟩ := s
  rcases h.cases_editing with ⟨(rfl : editing = none), (rfl : editing' = none)⟩ |
    ⟨shape, shape', (rfl : editing = _), (rfl : editing' = _), hshape⟩
  · cases mode with
    | curve => exact ⟨{ h with drag := rfl, editing := rfl }, rfl⟩
    | droppedPolygon => exact blind_placeDropped _ _ h
    | line | circle | polyline | label => exact ⟨h.making rfl, rfl⟩
  · cases mode with
    | line | circle => exact blind_finishAtPointer _ _ h
    | polyline => exact agrees_extendPolyline hshape h
    | curve => exact ⟨h, rfl⟩
    | label => exact agrees_commit rfl h
    | droppedPolygon => exact blind_placeDropped _ _ h

theorem blind_secondaryClick : Blind secondaryClick := by
  intro s s' h
  unfold secondaryClick
  rw [h.mode]
  split
  · exact blind_finishPolyline s s' h
  · exact blind_setMode .polyline s s' h
  · exact blind_cancel s s' h

theorem blind_applyButtons (frame : Frame) : Blind (applyButtons frame) := by
  intro s s' h
  unfold applyButtons
  split
  · exact blind_primaryClick s s' h
  · split
    · exact blind_secondaryClick s s' h
    · exact ⟨h, rfl⟩

theorem blind_dragHandles (frame : Frame) : Blind (dragHandles frame) := by
  intro s s' h
  obtain ⟨diagram', editing', rfl⟩ := h.exists_eq
  obtain ⟨diagram, settings, camera, viewport, mode, editing, drag, pointer⟩ := s
  rcases h.cases_editing with ⟨(rfl : editing = none), (rfl : editing' = none)⟩ |
    ⟨shape, shape', (rfl : editing = _), (rfl : editing' = _), hshape⟩
  · cases mode <;> exact ⟨h, rfl⟩
  · cases mode with
    | curve =>
      unfold dragHandles
      dsimp only
      split
      · obtain ⟨fan, raster, rfl⟩ := Shape.derived_of_plain_eq hshape
        refine ⟨{ h with drag := rfl, editing := ?_ }, rfl⟩
        exact congrArg some (Shape.plain_getD hshape (Shape.map_plain_drag? hshape pointer _))
      · exact ⟨{ h with drag := rfl }, rfl⟩
    | line | circle | polyline | label | droppedPolygon => exact ⟨h, rfl⟩

theorem blind_commitKey : Blind commitKey := by
  intro s s' h
  obtain ⟨diagram', editing', rfl⟩ := h.exists_eq
  obtain ⟨diagram, settings, camera, viewport, mode, editing, drag, pointer⟩ := s
  rcases h.cases_editing with ⟨(rfl : editing = none), (rfl : editing' = none)⟩ |
    ⟨shape, shape', (rfl : editing = _), (rfl : editing' = _), hshape⟩
  · cases mode with
    | line | circle => exact blind_finishAtPointer _ _ h
    | polyline => exact blind_finishPolyline _ _ h
    | curve | label | droppedPolygon => exact ⟨h, rfl⟩
  · cases mode with
    | line | circle => exact blind_finishAtPointer _ _ h
    | polyline => exact blind_finishPolyline _ _ h
    | curve => exact agrees_commit hshape { h with drag := rfl, editing := rfl }
    | label | droppedPolygon => exact ⟨h, rfl⟩

/-- The top shapes are of one plain form, and so are the shapes below. -/
theorem blind_deleteLast : Blind deleteLast := by
  intro s s' h
  have hlast : s.diagram.shapes.getLast?.map Shape.plain =
      s'.diagram.shapes.getLast?.map Shape.plain := by
    rw [← List.getLast?_map, ← List.getLast?_map, h.diagram]
  have hinit : s.diagram.shapes.dropLast.map Shape.plain =
      s'.diagram.shapes.dropLast.map Shape.plain := by
    rw [List.map_dropLast, List.map_dropLast, h.diagram]
  unfold deleteLast Diagram.pop
  rcases hs : s.diagram.shapes.getLast? with _ | shape <;>
    rcases hs' : s'.diagram.shapes.getLast? with _ | shape'
  · exact ⟨h, rfl⟩
  · rw [hs, hs'] at hlast; cases hlast
  · rw [hs, hs'] at hlast; cases hlast
  · rw [hs, hs'] at hlast
    have hkind := Shape.kind_eq_of_plain_eq (Option.some.inj hlast)
    exact ⟨{ h with diagram := hinit }, by simp [hkind]⟩

theorem blind_clearAll : Blind clearAll := by
  intro s s' h
  have hempty : s.diagram.shapes.isEmpty = s'.diagram.shapes.isEmpty := by
    simpa using congrArg List.isEmpty h.diagram
  unfold clearAll
  rw [hempty]
  split
  · exact ⟨h, rfl⟩
  · exact ⟨{ h with diagram := rfl }, by simp [h.size_diagram]⟩

/-- A click starts a shape in both or in neither. -/
theorem Alike.startsShape_eq (h : s.Alike s') : s.startsShape = s'.startsShape := by
  rw [startsShape, startsShape, h.isNone_editing, h.mode]

theorem Alike.isConstructing_eq (h : s.Alike s') : s.isConstructing = s'.isConstructing := by
  rw [isConstructing, isConstructing, h.isSome_editing, h.mode]

theorem blind_applyFrame (frame : Frame) (moved : Bool) : Blind (applyFrame frame moved) := by
  intro s s' h
  unfold applyFrame
  rw [h.startsShape_eq]
  refine Blind.andThen (blind_followPointer.guarded fun _ _ _ => rfl) (.andThen
    (blind_applyButtons frame) (.andThen
      ((blind_dragHandles frame).guarded fun _ _ _ => rfl) (.andThen
        (blind_commitKey.guarded fun s s' h => ?_) (.andThen
          (blind_deleteLast.guarded fun s s' h => ?_)
          (blind_clearAll.guarded fun s s' h => ?_))))) s s' h
  · rw [h.drag]
  · rw [h.isConstructing_eq]
  · rw [h.isConstructing_eq]

theorem blind_tick (frame : Frame) : Blind (tick frame) := by
  intro s s' h
  obtain ⟨diagram', editing', rfl⟩ := h.exists_eq
  have hpointer : Alike { s with pointer := s.snapped frame }
      { s with diagram := diagram', editing := editing', pointer := s.snapped frame } :=
    { h with pointer := rfl }
  have hframe := blind_applyFrame frame (!(s.snapped frame == s.pointer)) _ _
    (hpointer.applyKeys frame.keys)
  unfold tick
  dsimp only
  split
  · exact ⟨hpointer, rfl⟩
  · refine ⟨hframe.alike, ?_⟩
    -- The request to redraw at the end counts in neither of them.
    simp only [authored_append, authored_filter_renderNeeded, authored_redraw, List.append_nil]
    exact hframe.authored_eq

end Session

/-! ### Drawing -/

theorem Scene.map_plain_drawShapes {σ α : Type} [Scalar α] (v : View α) (rasterizer : Rasterizer σ)
    (shapes : List (Shape α)) (state : σ) :
    (drawShapes v rasterizer shapes state).2.1.map Shape.plain = shapes.map Shape.plain := by
  induction shapes generalizing state with
  | nil => rfl
  | cons s rest ih =>
    have hs := (v.derived_drawShape rasterizer Point.origin s state).plain_eq
    exact congrArg₂ List.cons hs.symm (ih _)

/-- Drawing derives something at most. -/
theorem Session.alike_render {σ : Type} (rasterizer : Rasterizer σ) (s : Session) (state : σ) :
    s.Alike (s.render rasterizer state).2.1 := by
  refine ⟨rfl, rfl, rfl, rfl, rfl, rfl, ?_, ?_⟩
  · unfold render Scene.build
    dsimp only
    split
    · exact (Scene.map_plain_drawShapes ..).symm
    · exact (Scene.map_plain_drawShapes ..).symm
  · unfold render Scene.build
    dsimp only
    split
    · rename_i hs
      rw [hs]
    · rename_i shape hs
      rw [hs]
      exact congrArg some (s.view.derived_drawEditing rasterizer shape _).plain_eq

/-! ### Runs -/

/-- A drawing of a session, with any rasterizer in any state. -/
structure Drawing : Type 1 where
  {σ : Type}
  rasterizer : Rasterizer σ
  state : σ

/-- The session after a drawing. -/
def Session.drawn (s : Session) (d : Drawing) : Session := (s.render d.rasterizer d.state).2.1

/-- What operations come to, one after another. -/
def trace (s : Session) : List Operation → List History
  | [] => []
  | op :: ops => op.perform s :: trace (op.perform s).session ops

/-- What operations come to if the session is drawn any number of times before each of them. -/
def watchedTrace (s : Session) : List (List Drawing × Operation) → List History
  | [] => []
  | (drawings, op) :: rest =>
    let outcome := op.perform (drawings.foldl Session.drawn s)
    outcome :: watchedTrace outcome.session rest

/-- Two outcomes that a host cannot tell apart but by what is derived, released and redrawn. -/
structure History.Agrees (first second : History) : Prop where
  alike : first.session.Alike second.session
  authored_eq : authored first.actions = authored second.actions

theorem Session.alike_foldl_drawn (s : Session) (drawings : List Drawing) :
    s.Alike (drawings.foldl Session.drawn s) := by
  induction drawings generalizing s with
  | nil => exact .refl s
  | cons d rest ih => exact (s.alike_render d.rasterizer d.state).trans (ih _)

/-- An operation does the same to sessions that are alike. -/
theorem Operation.agrees_perform (op : Operation) {s s' : Session} (h : s.Alike s') :
    (op.perform s).Agrees (op.perform s') := by
  have hblind : ∀ {t : Transition}, t.Blind →
      History.Agrees { session := (t s).1, actions := (t s).2 }
        { session := (t s').1, actions := (t s').2 } := fun ht =>
    ⟨(ht s s' h).alike, (ht s s' h).authored_eq⟩
  cases op with
  | tick frame => exact hblind (Session.blind_tick frame)
  | setMode mode => exact hblind (Session.blind_setMode mode)
  | setModeNamed name =>
    simp only [perform, Session.setModeNamed]
    cases Mode.named? name.toList with
    | none => exact ⟨h, rfl⟩
    | some mode => exact hblind (Session.blind_setMode mode)
  | beginDrop polygon => exact hblind (Session.blind_beginDrop polygon)
  | replaceDiagram shapes => exact hblind (Session.blind_replaceDiagram shapes)
  | appendShapes shapes => exact hblind (Session.blind_appendShapes shapes)
  | render rasterizer state =>
    have hfirst := (s.alike_render rasterizer state).symm.trans h
    exact ⟨hfirst.trans (s'.alike_render rasterizer state), rfl⟩
  | setSettings settings => exact ⟨{ h with settings := rfl }, rfl⟩
  | setCamera camera => exact ⟨{ h with camera := rfl }, rfl⟩
  | setViewport viewport => exact ⟨{ h with viewport := rfl }, rfl⟩

theorem forall₂_agrees_watchedTrace {s s' : Session} (h : s.Alike s')
    (ops : List (List Drawing × Operation)) :
    List.Forall₂ History.Agrees (trace s (ops.map (·.2))) (watchedTrace s' ops) := by
  induction ops generalizing s s' with
  | nil => exact .nil
  | cons step rest ih =>
    obtain ⟨drawings, op⟩ := step
    have hop := op.agrees_perform (h.trans (s'.alike_foldl_drawn drawings))
    exact .cons hop (ih hop.alike)

/-- Drawing is a pure observer: after every operation a run in which the session is drawn in between
agrees with the run in which it is not. -/
theorem trace_agrees_watchedTrace (s : Session) (ops : List (List Drawing × Operation)) :
    List.Forall₂ History.Agrees (trace s (ops.map (·.2))) (watchedTrace s ops) :=
  forall₂_agrees_watchedTrace (.refl s) ops

end Draftboard
