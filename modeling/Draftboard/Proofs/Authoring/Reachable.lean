import Draftboard.Authoring.Session

/-!
# Draftboard.Proofs.Authoring.Reachable

The sessions that a host can get to.

A host starts with the default session. It feeds it frames, changes its mode, drops polygons on it,
loads shapes, draws it, and writes to its settings, its camera and its viewport (`Session.Step`). A
predicate holds of every session it gets to if it holds of the first one and each step keeps it
(`Session.Reachable.induct`); a transition that is put together of others keeps what they keep
(`Transition.Keeps.andThen`).
-/

namespace Draftboard

namespace Session

/-- One thing that a host does to a session. -/
inductive Step : Session → Session → Prop
  | tick (s : Session) (frame : Frame) : Step s (tick frame s).1
  | setMode (s : Session) (mode : Mode) : Step s (setMode mode s).1
  | setModeNamed {s t : Session} {name : String} {actions : List Action}
      (h : setModeNamed name s = .ok (t, actions)) : Step s t
  | beginDrop (s : Session) (polygon : Shape Float) : Step s (beginDrop polygon s).1
  | replaceDiagram (s : Session) (shapes : List (Shape Float)) : Step s (replaceDiagram shapes s).1
  | appendShapes (s : Session) (shapes : List (Shape Float)) : Step s (appendShapes shapes s).1
  | render {σ : Type} (rasterizer : Rasterizer σ) (s : Session) (state : σ) :
      Step s (render rasterizer s state).2.1
  | settings (s : Session) (settings : Settings) : Step s { s with settings := settings }
  | camera (s : Session) (camera : Camera Float) : Step s { s with camera := camera }
  | viewport (s : Session) (viewport : Viewport Float) : Step s { s with viewport := viewport }

/-- The sessions that any sequence of steps leads to. -/
inductive Reachable : Session → Prop
  | start : Reachable {}
  | step {s t : Session} (hs : Reachable s) (h : Step s t) : Reachable t

/-- What holds at the start and is kept by each step holds of every reachable session. -/
theorem Reachable.induct {P : Session → Prop} (hstart : P {})
    (hstep : ∀ s t, Step s t → P s → P t) {s : Session} (h : Reachable s) : P s := by
  induction h with
  | start => exact hstart
  | step _ hst ih => exact hstep _ _ hst ih

end Session

namespace Transition

variable {P : Session → Prop} {t u : Transition}

/-- A transition after which a predicate still holds. -/
def Keeps (P : Session → Prop) (t : Transition) : Prop := ∀ s, P s → P (t s).1

theorem Keeps.andThen (ht : Keeps P t) (hu : Keeps P u) : Keeps P (t.andThen u) :=
  fun s hs => hu _ (ht s hs)

theorem Keeps.guarded (ht : Keeps P t) (condition : Session → Bool) :
    Keeps P (t.guarded condition) := by
  intro s hs
  unfold Transition.guarded
  split
  · exact ht s hs
  · exact hs

end Transition

end Draftboard
