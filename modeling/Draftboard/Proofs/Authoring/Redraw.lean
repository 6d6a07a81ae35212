import Draftboard.Command.Basic
import Draftboard.Proofs.Authoring.Reachable
import Draftboard.Proofs.Authoring.Replay

/-!
# Draftboard.Proofs.Authoring.Redraw

What a frame can change without a request to redraw.

* The scene is made of the committed shapes, the shape that is being made, and the outlook: settings,
  camera, viewport and pointer. No transition of a frame changes the outlook (`outlook_applyFrame`);
  only the pointer and the keys for the view do, before the transitions.
* A frame that asks for no redraw has reported no action, so it leaves the committed shapes and the
  mode (`quiet_tick`): what is drawn of them stays the same.
* It may change the shape that is being made, or move the pointer under it, and nobody is told
  (`unannounced_changes`). With the same shape at the same pointer, the picture is the same
  (`render_tick_of_quiet`).
-/

namespace Draftboard

open Transition (Keeps)

/-- A frame in which no button is down, the commit key is not pressed and no text is typed. -/
structure Frame.Idle (frame : Frame) : Prop where
  typing : frame.typing = false
  primary : frame.primary.pressed = false
  held : frame.primary.held = false
  secondary : frame.secondary.pressed = false
  commit : Key.commit ∉ frame.keys

/-- No action, no change. -/
theorem Replays.eq_of_nil {before after : List (Shape Float)} (h : Replays before [] after) :
    after = before := by
  cases h
  rfl

namespace Session

/-! ### The outlook -/

/-- What a scene depends on besides shapes and mode. -/
def outlook (s : Session) : Settings × Camera Float × Viewport Float × Point Float :=
  (s.settings, s.camera, s.viewport, s.pointer)

section Outlook

variable {o : Settings × Camera Float × Viewport Float × Point Float}

theorem keeps_outlook_commit (shape : Shape Float) :
    Keeps (fun s => s.outlook = o) (commit shape) := fun _ hs => hs

theorem keeps_outlook_setMode (mode : Mode) : Keeps (fun s => s.outlook = o) (setMode mode) :=
  fun _ hs => hs

theorem keeps_outlook_followPointer : Keeps (fun s => s.outlook = o) followPointer := by
  intro s hs
  unfold followPointer
  split
  · exact hs
  · exact hs
  · split <;> exact hs
  · exact hs

theorem keeps_outlook_finishAtPointer : Keeps (fun s => s.outlook = o) finishAtPointer := by
  intro s hs
  unfold finishAtPointer
  split <;> exact hs

theorem keeps_outlook_closePolygon : Keeps (fun s => s.outlook = o) closePolygon := by
  intro s hs
  unfold closePolygon
  split <;> exact hs

theorem keeps_outlook_extendPolyline (shape : Shape Float) :
    Keeps (fun s => s.outlook = o) (extendPolyline shape) := by
  intro s hs
  unfold extendPolyline
  dsimp only
  split
  · split
    · exact keeps_outlook_closePolygon s hs
    · exact hs
  · exact hs

theorem keeps_outlook_finishPolyline : Keeps (fun s => s.outlook = o) finishPolyline := by
  intro s hs
  unfold finishPolyline
  split
  · exact hs
  · dsimp only
    split <;> exact hs

theorem keeps_outlook_placeDropped : Keeps (fun s => s.outlook = o) placeDropped := by
  intro s hs
  unfold placeDropped
  split
  · exact hs
  · exact (keeps_outlook_commit _).andThen (keeps_outlook_setMode .polyline)
      { s with editing := none } hs

theorem keeps_outlook_primaryClick : Keeps (fun s => s.outlook = o) primaryClick := by
  intro s hs
  unfold primaryClick
  split
  · exact hs
  · exact hs
  · exact keeps_outlook_finishAtPointer s hs
  · exact keeps_outlook_finishAtPointer s hs
  · exact hs
  · exact keeps_outlook_extendPolyline _ s hs
  · exact hs
  · exact hs
  · exact hs
  · exact hs
  · exact keeps_outlook_placeDropped s hs

theorem keeps_outlook_secondaryClick : Keeps (fun s => s.outlook = o) secondaryClick := by
  intro s hs
  unfold secondaryClick
  split
  · exact keeps_outlook_finishPolyline s hs
  · exact hs
  · exact hs

theorem keeps_outlook_applyButtons (frame : Frame) :
    Keeps (fun s => s.outlook = o) (applyButtons frame) := by
  intro s hs
  unfold applyButtons
  split
  · exact keeps_outlook_primaryClick s hs
  · split
    · exact keeps_outlook_secondaryClick s hs
    · exact hs

theorem keeps_outlook_dragHandles (frame : Frame) :
    Keeps (fun s => s.outlook = o) (dragHandles frame) := by
  intro s hs
  unfold dragHandles
  split
  · split <;> exact hs
  · exact hs

theorem keeps_outlook_commitKey : Keeps (fun s => s.outlook = o) commitKey := by
  intro s hs
  unfold commitKey
  split
  · exact keeps_outlook_finishAtPointer s hs
  · exact keeps_outlook_finishAtPointer s hs
  · exact keeps_outlook_finishPolyline s hs
  · exact hs
  · exact hs

theorem keeps_outlook_deleteLast : Keeps (fun s => s.outlook = o) deleteLast := by
  intro s hs
  unfold deleteLast
  split <;> exact hs

theorem keeps_outlook_clearAll : Keeps (fun s => s.outlook = o) clearAll := by
  intro s hs
  unfold clearAll
  split <;> exact hs

end Outlook

theorem outlook_applyFrame (frame : Frame) (moved : Bool) (s : Session) :
    (applyFrame frame moved s).1.outlook = s.outlook := by
  unfold applyFrame
  exact (keeps_outlook_followPointer.guarded _).andThen ((keeps_outlook_applyButtons frame).andThen
    (((keeps_outlook_dragHandles frame).guarded _).andThen ((keeps_outlook_commitKey.guarded _).andThen
      ((keeps_outlook_deleteLast.guarded _).andThen (keeps_outlook_clearAll.guarded _))))) s rfl

/-! ### Quiet frames -/

/-- Only keys for the view change a session before its shapes. -/
theorem foldl_applyKey_of_not_changesView {keys : List Key}
    (h : keys.any Key.changesView = false) (s : Session) : keys.foldl applyKey s = s := by
  induction keys with
  | nil => rfl
  | cons key keys ih =>
    obtain ⟨hkey, hkeys⟩ := Bool.or_eq_false_iff.1 (List.any_cons.symm.trans h)
    have hsame : applyKey s key = s := by cases key <;> first | rfl | cases hkey
    rw [List.foldl_cons, hsame]
    exact ih hkeys

/-- Whether the pointer of a frame is another one than that of the session. -/
def sees (s : Session) (frame : Frame) : Bool := !(s.snapped frame == s.pointer)

/-- What a frame comes to that asks for no redraw: the steps that follow the pointer, none of which
reports anything, and if the pointer has moved then no shape is left under it. -/
theorem quiet_tick {s : Session} {frame : Frame} (hquiet : .renderNeeded ∉ (tick frame s).2)
    (htyping : frame.typing = false) :
    let before : Session := { s with pointer := s.snapped frame }
    let after := (applyFrame frame (s.sees frame) before).1
    (tick frame s).1 = after ∧ Follows before (after, []) ∧
      (s.sees frame = true → after.editing = none) := by
  intro before after
  have hredraw : ∀ {actions : List Action} {redraw : Bool},
      .renderNeeded ∉ actions ++ (if redraw then [.renderNeeded] else []) → redraw = false := by
    intro actions redraw h
    cases redraw with
    | false => rfl
    | true => exact absurd (List.mem_append_right _ (List.mem_singleton.2 rfl)) h
  unfold tick at hquiet ⊢
  dsimp only at hquiet ⊢
  rw [htyping, if_neg (by decide)] at hquiet ⊢
  -- None of the three reasons for a redraw applies.
  obtain ⟨hreported, hmoved⟩ := Bool.or_eq_false_iff.1 (hredraw hquiet)
  obtain ⟨hview, hactions⟩ := Bool.or_eq_false_iff.1 hreported
  rw [foldl_applyKey_of_not_changesView hview] at hmoved hactions ⊢
  refine ⟨rfl, ?_, fun hsees => ?_⟩
  · have hnone : settled (applyFrame frame (s.sees frame) before).2 false = [] := by
      rw [settled, if_neg (by decide), List.append_nil]
      exact List.isEmpty_iff.1 ((Bool.not_eq_eq_eq_not ..).1 hactions)
    have hfollows : Follows before (after, settled (applyFrame frame (s.sees frame) before).2 false) :=
      (follows_applyFrame frame (s.sees frame) before).settled false
    rwa [hnone] at hfollows
  · have hgone : (s.sees frame && after.editing.isSome) = false := hmoved
    rw [hsees, Bool.true_and] at hgone
    exact Option.isNone_iff_eq_none.1 (Option.isSome_eq_false_iff.1 hgone)

/-- A frame that asks for no redraw leaves all that the committed shapes are drawn from. -/
theorem quiet_tick_view {s : Session} {frame : Frame} (hquiet : .renderNeeded ∉ (tick frame s).2) :
    (tick frame s).1.diagram = s.diagram ∧
      (tick frame s).1.view = { s.view with pointer := s.snapped frame } := by
  cases htyping : frame.typing with
  | true =>
    have htick : (tick frame s).1 = { s with pointer := s.snapped frame } := by
      unfold tick
      dsimp only
      rw [if_pos htyping]
    rw [htick]
    exact ⟨rfl, rfl⟩
  | false =>
    obtain ⟨htick, hfollows, -⟩ := quiet_tick hquiet htyping
    have houtlook := outlook_applyFrame frame (s.sees frame) { s with pointer := s.snapped frame }
    rw [← htick] at hfollows houtlook
    obtain ⟨hsettings, hrest⟩ := Prod.mk.inj houtlook
    obtain ⟨hcamera, hrest⟩ := Prod.mk.inj hrest
    obtain ⟨hviewport, hpointer⟩ := Prod.mk.inj hrest
    have hmode : (tick frame s).1.mode = s.mode := hfollows.mode
    refine ⟨?_, ?_⟩
    · exact congrArg Diagram.mk hfollows.shapes.eq_of_nil
    · unfold view
      rw [hsettings, hcamera, hviewport, hpointer, hmode]

/-! ### Idle frames -/

section Idle

variable {e : Option (Shape Float)} {frame : Frame}

theorem keeps_editing_dragHandles (hheld : frame.primary.held = false) :
    Keeps (fun s => s.editing = e) (dragHandles frame) := by
  intro s hs
  unfold dragHandles
  split
  · rw [if_neg (by simp [hheld])]
    exact hs
  · exact hs

theorem keeps_editing_deleteLast : Keeps (fun s => s.editing = e) deleteLast := by
  intro s hs
  unfold deleteLast
  split <;> exact hs

theorem keeps_editing_clearAll : Keeps (fun s => s.editing = e) clearAll := by
  intro s hs
  unfold clearAll
  split <;> exact hs

theorem keeps_editing_applyButtons (hidle : frame.Idle) :
    Keeps (fun s => s.editing = e) (applyButtons frame) := by
  intro s hs
  rw [applyButtons, if_neg (by simp [hidle.primary]), if_neg (by simp [hidle.secondary])]
  exact hs

theorem keeps_editing_commitKey (hidle : frame.Idle) :
    Keeps (fun s => s.editing = e)
      (commitKey.guarded fun s => frame.keys.contains .commit && s.drag.isNone) := by
  intro s hs
  rw [Transition.guarded, if_neg (by simp [hidle.commit])]
  exact hs

/-- Once the pointer has been followed, an idle frame leaves the shape that is being made. -/
theorem keeps_editing_afterPointer (hidle : frame.Idle) (grabs delete clear : Session → Bool) :
    Keeps (fun s => s.editing = e) <| (applyButtons frame).andThen <|
      ((dragHandles frame).guarded grabs).andThen <|
      (commitKey.guarded fun s => frame.keys.contains .commit && s.drag.isNone).andThen <|
      (deleteLast.guarded delete).andThen (clearAll.guarded clear) := by
  have hdrag := keeps_editing_dragHandles (e := e) hidle.held
  exact (keeps_editing_applyButtons hidle).andThen ((hdrag.guarded _).andThen
    ((keeps_editing_commitKey hidle).andThen
      ((keeps_editing_deleteLast.guarded _).andThen (keeps_editing_clearAll.guarded _))))

/-- An idle frame does to the shape that is being made what the pointer does. -/
theorem editing_applyFrame_of_idle (hidle : frame.Idle) (moved : Bool) (s : Session) :
    (applyFrame frame moved s).1.editing =
      (followPointer.guarded (fun _ => moved) s).1.editing := by
  unfold applyFrame
  dsimp only
  rw [Transition.andThen_apply]
  dsimp only
  exact keeps_editing_afterPointer hidle _ _ _ (followPointer.guarded (fun _ => moved) s).1 rfl

/-- The pointer makes no shape and takes none away. -/
theorem isSome_editing_followPointer (s : Session) :
    (followPointer s).1.editing.isSome = s.editing.isSome := by
  unfold followPointer
  split
  · rename_i hediting _
    rw [hediting]
    rfl
  · rename_i hediting _
    rw [hediting]
    rfl
  · rename_i hediting _
    rw [hediting]
    split <;> rfl
  · rfl

/-- An idle frame that asks for no redraw leaves the shape that is being made. -/
theorem editing_tick_of_idle {s : Session} (hidle : frame.Idle)
    (hquiet : .renderNeeded ∉ (tick frame s).2) : (tick frame s).1.editing = s.editing := by
  obtain ⟨htick, -, hgone⟩ := quiet_tick hquiet hidle.typing
  rw [htick]
  rw [editing_applyFrame_of_idle hidle] at hgone ⊢
  cases hsees : s.sees frame with
  | false => rfl
  -- A shape would have followed the pointer, which asks for a redraw.
  | true =>
    have hnone := hgone hsees
    rw [hsees] at hnone
    have hsome := isSome_editing_followPointer { s with pointer := s.snapped frame }
    change (followPointer _).1.editing = none at hnone
    rw [hnone] at hsome
    exact hnone.trans (Option.isSome_eq_false_iff.1 hsome.symm |> Option.isNone_iff_eq_none.1).symm

end Idle

/-! ### The picture -/

end Session

/-- Committed shapes are drawn without regard to the pointer. -/
theorem Scene.drawShapes_pointer {σ α : Type} [Scalar α] (v : View α) (p : Point α)
    (rasterizer : Rasterizer σ) (shapes : List (Shape α)) (state : σ) :
    Scene.drawShapes { v with pointer := p } rasterizer shapes state =
      Scene.drawShapes v rasterizer shapes state := by
  induction shapes generalizing state with
  | nil => rfl
  | cons shape rest ih =>
    have hdrawn : ({ v with pointer := p } : View α).drawShape rasterizer Point.origin shape state =
      v.drawShape rasterizer Point.origin shape state := rfl
    rw [drawShapes, drawShapes, hdrawn]
    dsimp only
    rw [ih]

namespace Session

/-- A frame that asks for no redraw leaves what is drawn of the committed shapes. It leaves the shape
that is being made too if it is idle. And if that shape is left as it was, and there is none or the
pointer is where it was, the frame leaves the whole picture. -/
theorem render_tick_of_quiet {σ : Type} (rasterizer : Rasterizer σ) (state : σ) (s : Session)
    (frame : Frame) (hquiet : .renderNeeded ∉ (tick frame s).2) :
    (let after := (tick frame s).1
     Scene.drawShapes after.view rasterizer after.diagram.shapes state =
       Scene.drawShapes s.view rasterizer s.diagram.shapes state) ∧
    (frame.Idle → (tick frame s).1.editing = s.editing) ∧
    ((tick frame s).1.editing = s.editing →
      s.editing = none ∨ (tick frame s).1.pointer = s.pointer →
      (render rasterizer (tick frame s).1 state).1 = (render rasterizer s state).1) := by
  obtain ⟨hdiagram, hview⟩ := quiet_tick_view hquiet
  have hcommitted : Scene.drawShapes (tick frame s).1.view rasterizer
      (tick frame s).1.diagram.shapes state =
        Scene.drawShapes s.view rasterizer s.diagram.shapes state := by
    rw [hdiagram, hview, Scene.drawShapes_pointer]
  refine ⟨hcommitted, fun hidle => editing_tick_of_idle hidle hquiet, fun hediting hpointer => ?_⟩
  unfold render Scene.build
  dsimp only
  rw [hcommitted, hediting]
  rcases hpointer with hnone | hpointer
  · rw [hnone]
  -- The view is the same.
  · have hsame : (tick frame s).1.view = s.view := by
      have hsnapped := congrArg View.pointer hview
      change (tick frame s).1.pointer = s.snapped frame at hsnapped
      rw [hview, ← hsnapped, hpointer]
      rfl
    rw [hsame]

/-- A click with the primary button. -/
def clickAt (p : Point Float) : Frame := { pointer := p, primary := { pressed := true } }

/-- A line from (1, 1) to the pointer at (2, 1). -/
def lineAtPointer : Session := (tick { pointer := ⟨2, 1⟩ } (tick (clickAt ⟨1, 1⟩) {}).1).1

/-- The pointer rests on the end of a line that is being made. -/
theorem render_tick_restingPointer :
    let rest : Frame := { pointer := ⟨2, 1⟩ }
    .renderNeeded ∉ (tick rest lineAtPointer).2 ∧ lineAtPointer.editing.isSome = true ∧
      (render Command.noImages (tick rest lineAtPointer).1 ()).1 =
        (render Command.noImages lineAtPointer ()).1 := by
  have hquiet : .renderNeeded ∉ (tick { pointer := ⟨2, 1⟩ } lineAtPointer).2 := by decide +kernel
  obtain ⟨-, hidle, hpicture⟩ := render_tick_of_quiet Command.noImages () lineAtPointer _ hquiet
  have hpointer : (tick { pointer := ⟨2, 1⟩ } lineAtPointer).1.pointer = lineAtPointer.pointer := by
    have hx : (tick { pointer := ⟨2, 1⟩ } lineAtPointer).1.pointer.x = lineAtPointer.pointer.x := by
      decide +kernel
    have hy : (tick { pointer := ⟨2, 1⟩ } lineAtPointer).1.pointer.y = lineAtPointer.pointer.y := by
      decide +kernel
    exact Point.ext hx hy
  exact ⟨hquiet, by decide +kernel, hpicture (hidle ⟨rfl, rfl, rfl, rfl, by simp⟩) (.inr hpointer)⟩

/-! ### Changes that nobody is told of -/

/-- The points that are drawn of a session, as patterns of bits. -/
def drawnPoints (s : Session) : List (UInt64 × UInt64) :=
  (render Command.noImages s ()).1.flatMap fun
    | .stroke points .. => points.map fun p => (p.x.toBits, p.y.toBits)
    | _ => []

/-- A polyline with one vertex, which is where the pointer was, and the pointer a unit to the right. -/
def polylineBesidePointer : Session :=
  (tick { pointer := ⟨2, 1⟩ } (tick (clickAt ⟨1, 1⟩) (setMode .polyline {}).1).1).1

theorem reachable_lineAtPointer : Reachable lineAtPointer := .step (.step .start (.tick _ _)) (.tick _ _)

theorem reachable_polylineBesidePointer : Reachable polylineBesidePointer :=
  .step (.step (.step .start (.setMode _ _)) (.tick _ _)) (.tick _ _)

/-- A frame that changes the picture of a session and asks for no redraw. -/
structure Unannounced (s : Session) (frame : Frame) : Prop where
  reachable : Reachable s
  quiet : .renderNeeded ∉ (tick frame s).2
  changed : (render Command.noImages (tick frame s).1 ()).1 ≠ (render Command.noImages s ()).1

theorem Unannounced.of_drawnPoints {s : Session} {frame : Frame} (hs : Reachable s)
    (hquiet : .renderNeeded ∉ (tick frame s).2)
    (hpoints : (tick frame s).1.drawnPoints ≠ s.drawnPoints) : Unannounced s frame :=
  ⟨hs, hquiet, fun h => hpoints (by rw [drawnPoints, h, drawnPoints])⟩

/-- A click that starts a line, a click that discards it, one that adds a vertex, and a move of the
pointer while text is typed. -/
theorem unannounced_changes :
    Unannounced {} (clickAt ⟨0, 0⟩) ∧
      Unannounced lineAtPointer { pointer := ⟨2, 1⟩, secondary := { pressed := true } } ∧
      Unannounced polylineBesidePointer (clickAt ⟨2, 1⟩) ∧
      Unannounced polylineBesidePointer { pointer := ⟨1, 2⟩, typing := true } :=
  ⟨.of_drawnPoints .start (by decide +kernel) (by decide +kernel),
    .of_drawnPoints reachable_lineAtPointer (by decide +kernel) (by decide +kernel),
    .of_drawnPoints reachable_polylineBesidePointer (by decide +kernel) (by decide +kernel),
    .of_drawnPoints reachable_polylineBesidePointer (by decide +kernel) (by decide +kernel)⟩

end Session

end Draftboard
