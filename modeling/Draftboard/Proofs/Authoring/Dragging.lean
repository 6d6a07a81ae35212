import Mathlib.Data.List.Nodup
import Draftboard.Proofs.Authoring.Making

/-!
# Draftboard.Proofs.Authoring.Dragging

Handles of a curve under the pointer.

* A drag moves one handle of a curve to the pointer and leaves the others where they are
  (`Shape.handles_drag?`), and no two handles have one name (`Shape.nodup_handles`).
* Which handle is dragged is settled when the button goes down: the first one near the pointer, in the
  order in which handles are tried (`FirstNear`). It is held on to until the button is let go.
* `Session.Drags` says all that a frame does to a curve that is being made, and `tick_drags` that every
  frame does so after which the curve is still being made.
-/

namespace Draftboard

/-! ### Handles -/

/-- A handle near enough to the pointer to be grabbed. -/
def Near (pointer : Point Float) (reach : Float) (handle : Handle × Point Float) : Prop :=
  handle.2.squaredDistance pointer ≤ reach * reach

/-- The first of the handles that is near enough to the pointer, if any is. -/
def FirstNear (handles : List (Handle × Point Float)) (pointer : Point Float) (reach : Float) :
    Option Handle → Prop
  | some handle => ∃ earlier p later, handles = earlier ++ (handle, p) :: later ∧
      Near pointer reach (handle, p) ∧ ∀ other ∈ earlier, ¬ Near pointer reach other
  | none => ∀ other ∈ handles, ¬ Near pointer reach other

/-- Moves a handle, if it is the dragged one. -/
def moveTo (dragged : Option Handle) (p : Point Float) (handle : Handle × Point Float) :
    Handle × Point Float :=
  (handle.1, if dragged = some handle.1 then p else handle.2)

@[simp] theorem moveTo_none (p : Point Float) : moveTo none p = id := by
  funext handle
  simp [moveTo]

theorem map_moveTo_controls (dragged : Option Handle) (p : Point Float)
    (controls : List (Point Float)) :
    (controls.mapIdx fun i q => (Handle.control i, q)).map (moveTo dragged p) =
      controls.mapIdx fun i q => (.control i, if dragged = some (.control i) then p else q) := by
  apply List.ext_getElem <;> simp [moveTo]

namespace Shape

variable {s : Shape Float}

theorem exists_curve (hkind : s.kind = .curve) :
    ∃ start controls stop, s.geometry = .curve start controls stop := by
  unfold kind at hkind
  cases hg : s.geometry with
  | curve start controls stop => exact ⟨start, controls, stop, rfl⟩
  | line | circle | polyline | label => rw [hg] at hkind; cases hkind

theorem handles_of_curve {start stop : Point Float} {controls : List (Point Float)}
    (h : s.geometry = .curve start controls stop) :
    s.handles = (.start, start) :: (.stop, stop) :: controls.mapIdx fun i p => (.control i, p) := by
  unfold handles
  rw [h]

/-- No two handles have one name. -/
theorem nodup_handles (s : Shape Float) : (s.handles.map (·.1)).Nodup := by
  unfold handles
  split
  · rename_i start controls stop hcurve
    have hnames : (controls.mapIdx fun i p => (Handle.control i, p)).map (·.1) =
        (List.range controls.length).map Handle.control := by
      apply List.ext_getElem <;> simp
    simp only [List.map_cons, hnames, List.nodup_cons]
    refine ⟨by simp, by simp, ?_⟩
    exact List.Nodup.map (fun _ _ h => Handle.control.inj h) List.nodup_range
  · exact List.nodup_nil

/-- A curve has its two ends and a handle for each control point. -/
theorem exists_mem_handles (hkind : s.kind = .curve) {handle : Handle}
    (hcontrol : ∀ i, handle = .control i → i < s.geometry.vertices.length) :
    ∃ p, (handle, p) ∈ s.handles := by
  obtain ⟨start, controls, stop, hcurve⟩ := exists_curve hkind
  rw [handles_of_curve hcurve]
  cases handle with
  | start => exact ⟨start, by simp⟩
  | stop => exact ⟨stop, by simp⟩
  | control i =>
    have hi : i < controls.length := by simpa [hcurve, Geometry.vertices] using hcontrol i rfl
    exact ⟨controls[i], by simp [List.mem_mapIdx, hi]⟩

/-- The handle that is looked for is the first one near the pointer. -/
theorem firstNear_handleAt (s : Shape Float) (pointer : Point Float) (reach : Float) :
    FirstNear s.handles pointer reach (s.handleAt pointer reach) := by
  unfold handleAt
  cases hfind : s.handles.find? fun (_, p) => p.squaredDistance pointer ≤ reach * reach with
  | none =>
    intro other hother
    simpa [Near] using List.find?_eq_none.1 hfind other hother
  | some found =>
    obtain ⟨hnear, earlier, later, hsplit, hearlier⟩ := List.find?_eq_some_iff_append.1 hfind
    exact ⟨earlier, found.2, later, hsplit, by simpa [Near] using hnear, fun other hother => by
      simpa [Near] using hearlier other hother⟩

/-- A drag moves the dragged handle of a curve and no other. A handle that the curve does not have
moves nothing. -/
theorem handles_drag? (hkind : s.kind = .curve) (p : Point Float) (dragged : Option Handle) :
    ((s.drag? p dragged).getD s).handles = s.handles.map (moveTo dragged p) := by
  obtain ⟨start, controls, stop, hcurve⟩ := exists_curve hkind
  rw [handles_of_curve hcurve]
  rcases dragged with _ | _ | _ | index
  · simp [drag?, handles_of_curve hcurve]
  · have hmoved : (s.setStart p).geometry = .curve p controls stop := by
      rw [setStart, withGeometry, hcurve]
      rfl
    simp [drag?, handles_of_curve hmoved, map_moveTo_controls, moveTo]
  · have hmoved : (s.setStop p).geometry = .curve start controls p := by
      rw [setStop, withGeometry, hcurve]
      rfl
    simp [drag?, handles_of_curve hmoved, map_moveTo_controls, moveTo]
  · have hmoved : ((s.setControl? index p).getD s).geometry =
        .curve start (controls.set index p) stop := by
      unfold setControl?
      rw [hcurve]
      dsimp only
      split
      · rfl
      · rename_i hindex
        rw [List.set_eq_of_length_le (by omega)]
        exact hcurve
    have hcontrols : (controls.set index p).mapIdx (fun i q => (Handle.control i, q)) =
        controls.mapIdx fun i q => (.control i, if index = i then p else q) := by
      apply List.ext_getElem
      · simp
      · intro i _ _
        by_cases hi : index = i <;> simp [hi]
    simp [drag?, handles_of_curve hmoved, map_moveTo_controls, hcontrols, moveTo]

theorem length_vertices_drag? (hkind : s.kind = .curve) (p : Point Float)
    (dragged : Option Handle) :
    ((s.drag? p dragged).getD s).geometry.vertices.length = s.geometry.vertices.length := by
  cases hdrag : s.drag? p dragged with
  | none => rfl
  | some t => exact (drag?_curve hkind hdrag).2

theorem style_drag? (s : Shape Float) (p : Point Float) (dragged : Option Handle) :
    ((s.drag? p dragged).getD s).style = s.style := by
  rcases dragged with _ | _ | _ | index
  · rfl
  · rfl
  · rfl
  · show ((s.setControl? index p).getD s).style = s.style
    unfold setControl?
    split
    · split <;> rfl
    · rfl

end Shape

/-! ### One frame -/

/-- What a frame does to a curve that is being made and goes on being made. -/
structure Session.Drags (s : Session) (frame : Frame) (shape : Shape Float) (t : Session)
    (after : Shape Float) : Prop where
  pointer_eq : t.pointer = s.snapped frame
  /-- The dragged handle is moved to the pointer, and no other handle is moved. -/
  handles_eq : after.handles = shape.handles.map (moveTo t.drag t.pointer)
  nodup : (shape.handles.map (·.1)).Nodup
  moved : ∀ handle, t.drag = some handle → (handle, t.pointer) ∈ after.handles
  /-- While the button is held, a handle that is dragged goes on being dragged. -/
  kept : frame.primary.held = true → s.drag ≠ none → t.drag = s.drag
  /-- Otherwise the first handle near the pointer is grabbed, in the view that the keys of the frame
  have led to and before the pointer snaps. -/
  grabbed : frame.primary.held = true → s.drag = none →
    FirstNear shape.handles frame.pointer (Handle.reach t.camera t.viewport) t.drag
  released : frame.primary.held = false → t.drag = none
  resting : t.drag = none → after.handles = shape.handles
  controls : after.geometry.vertices.length = shape.geometry.vertices.length
  style_eq : after.style = shape.style

namespace Session

variable {s : Session} {frame : Frame} {shape after : Shape Float}

/-- A click does nothing to a curve, and a secondary click gives it up. -/
theorem applyButtons_of_curve (hmode : s.mode = .curve) (hediting : s.editing = some shape)
    (frame : Frame) :
    applyButtons frame s = (s, []) ∨ (applyButtons frame s).1.editing = none := by
  unfold applyButtons primaryClick secondaryClick
  rw [hmode, hediting]
  split
  · exact .inl rfl
  · split
    · exact .inr rfl
    · exact .inl rfl

/-- The commit key commits the curve, or it does nothing. -/
theorem pressCommit_of_curve (hmode : s.mode = .curve) (frame : Frame) :
    (pressCommit frame s).1 = s ∨ (pressCommit frame s).1.editing = none := by
  unfold pressCommit Transition.guarded
  split
  · unfold commitKey
    rw [hmode]
    cases s.editing with
    | none => exact .inl rfl
    | some shape => exact .inr rfl
  · exact .inl rfl

/-- A frame after which a curve is still being made has only dragged its handles. -/
theorem draws_of_curve (hmode : s.mode = .curve) (hediting : s.editing = some shape)
    (hafter : (s.draws frame).1.editing = some after) :
    (s.draws frame).1 = (dragHandles frame (s.heard frame)).1 := by
  have hheard : (s.heard frame).mode = .curve := by simpa using hmode
  have hsome : (s.heard frame).editing = some shape := by simpa using hediting
  have hfollow := followPointer_of_mode (.inr hheard)
  have hstarts : (s.heard frame).startsShape = false := by
    unfold startsShape
    rw [hsome]
    rfl
  unfold draws at hafter ⊢
  dsimp only at hafter ⊢
  rw [Transition.andThen_of_quiet (Transition.guarded_of_quiet hfollow _)] at hafter ⊢
  rcases applyButtons_of_curve hheard hsome frame with hquiet | hnone
  · rw [Transition.andThen_of_quiet hquiet, Transition.andThen_apply] at hafter ⊢
    simp only [Transition.guarded, hstarts, Bool.and_false, Bool.not_false, if_true] at hafter ⊢
    have hdragged := (mode_dragHandles frame (s.heard frame)).trans hheard
    refine (pressCommit_of_curve hdragged frame).resolve_right fun hnone => ?_
    rw [hnone] at hafter
    cases hafter
  · rw [Transition.andThen_apply, Transition.andThen_of_quiet
      (Transition.guarded_of_quiet (dragHandles_of_idle hnone frame) _),
      pressCommit_of_idle hnone, hnone] at hafter
    cases hafter

/-- The handle that is dragged is moved to the pointer; while the button is held it is the one that
was dragged before, or the first one near the pointer. -/
theorem dragHandles_of_curve (hmode : s.mode = .curve) (hediting : s.editing = some shape)
    (frame : Frame) :
    (dragHandles frame s).1.editing =
        some ((shape.drag? s.pointer (dragHandles frame s).1.drag).getD shape) ∧
      (frame.primary.held = true → (dragHandles frame s).1.drag =
        s.drag.or (shape.handleAt frame.pointer (Handle.reach s.camera s.viewport))) ∧
      (frame.primary.held = false → (dragHandles frame s).1.drag = none) := by
  unfold dragHandles
  rw [hmode, hediting]
  cases frame.primary.held with
  | true => exact ⟨rfl, fun _ => rfl, nofun⟩
  | false => exact ⟨rfl, nofun, fun _ => rfl⟩

/-- Whatever a frame brings after which a curve is still being made, it moves one handle at most, the
one that was grabbed when the button went down. -/
theorem tick_drags (hs : s.Reachable) (hmode : s.mode = .curve) (hediting : s.editing = some shape)
    (htyping : frame.typing = false) (hafter : (tick frame s).1.editing = some after) :
    s.Drags frame shape (tick frame s).1 after := by
  have hkind : shape.kind = .curve := by
    rw [Shape.kind, (hs.invariant.fits_geometry hediting).kind, hmode]
    rfl
  have hpointer := pointer_tick s frame
  have houtlook := outlook_tick (s := s) htyping
  have hcamera : (tick frame s).1.camera = (s.heard frame).camera := congrArg (·.2.1) houtlook
  have hviewport : (tick frame s).1.viewport = (s.heard frame).viewport :=
    congrArg (·.2.2.1) houtlook
  -- What the frame leaves of the curve and of the drag is what dragging makes of them.
  have hdrawn : (s.draws frame).1.editing = some after := by
    rw [← editing_tick htyping]
    exact hafter
  have hdraws := draws_of_curve hmode hediting hdrawn
  have hdrag : (tick frame s).1.drag = (dragHandles frame (s.heard frame)).1.drag := by
    obtain ⟨diagram, htick⟩ := exists_tick_eq (s := s) htyping
    rw [htick, ← hdraws]
  obtain ⟨hshape, hheld, hlet⟩ := dragHandles_of_curve
    (by simpa using hmode : (s.heard frame).mode = .curve)
    (by simpa using hediting : (s.heard frame).editing = some shape) frame
  rw [← hdrag, s.pointer_heard] at hshape
  rw [← hdrag, s.drag_heard, ← hcamera, ← hviewport] at hheld
  rw [← hdrag] at hlet
  obtain rfl : (shape.drag? (s.snapped frame) (tick frame s).1.drag).getD shape = after :=
    Option.some.inj (hshape.symm.trans (hdraws ▸ hdrawn))
  have hhandles := Shape.handles_drag? hkind (s.snapped frame) (tick frame s).1.drag
  have hlength := Shape.length_vertices_drag? hkind (s.snapped frame) (tick frame s).1.drag
  rw [← hpointer] at hhandles hlength hafter ⊢
  refine ⟨hpointer, hhandles, shape.nodup_handles, fun handle hhandle => ?_, fun h hactive => ?_,
    fun h hnone => ?_, hlet, fun hnone => ?_, hlength, shape.style_drag? _ _⟩
  -- The curve has the handle, so it is among those that are moved.
  · obtain ⟨-, g, hg, hcontrol⟩ := (hs.step (.tick s frame)).invariant.drag handle hhandle
    rw [making, hafter] at hg
    obtain rfl := Option.some.inj hg
    obtain ⟨p, hp⟩ := Shape.exists_mem_handles hkind fun i hi => hlength ▸ hcontrol i hi
    rw [hhandles]
    exact List.mem_map.2 ⟨(handle, p), hp, by simp [moveTo, hhandle]⟩
  · obtain ⟨handle, hhandle⟩ := Option.ne_none_iff_exists'.1 hactive
    rw [hheld h, hhandle]
    rfl
  · rw [hheld h, hnone]
    exact shape.firstNear_handleAt _ _
  · rw [hhandles, hnone, moveTo_none, List.map_id]

/-- The control point of a new curve is grabbed beside it, in a frame that zooms in. -/
theorem tick_drags_control :
    let s := (run [.setMode .curve, .tick (clickAt ⟨0, 0⟩)]).session
    let frame : Frame := { pointer := ⟨1.02, 1.01⟩, primary := { held := true }, keys := [.zoomIn] }
    s.Reachable ∧ s.mode = .curve ∧ frame.typing = false ∧
      (tick frame s).1.drag = some (.control 0) ∧
      ∃ shape after, s.editing = some shape ∧ (tick frame s).1.editing = some after ∧
        s.Drags frame shape (tick frame s).1 after := by
  intro s frame
  have hs : s.Reachable := reachable_run _
  have hmode : s.mode = .curve := by decide +kernel
  have hmaking : s.editing.isSome = true := by decide +kernel
  have hstill : (tick frame s).1.editing.isSome = true := by decide +kernel
  obtain ⟨shape, hediting⟩ := Option.isSome_iff_exists.1 hmaking
  obtain ⟨after, hafter⟩ := Option.isSome_iff_exists.1 hstill
  exact ⟨hs, hmode, rfl, by decide +kernel, shape, after, hediting, hafter,
    tick_drags hs hmode hediting rfl hafter⟩

end Session

end Draftboard
