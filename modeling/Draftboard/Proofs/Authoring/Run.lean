import Mathlib.Data.List.Induction
import Draftboard.Proofs.Authoring.Invariant
import Draftboard.Proofs.Scene.Images

/-!
# Draftboard.Proofs.Authoring.Run

What has happened to a session so far.

* An `Operation` is one thing that a host does to a session. Performing it gives a `History`: the
  session after it, the actions it returned, and the answers of the rasterizer.
* `run` performs operations on the default session, one after another, and gathers what they came
  to. It is taken apart at its last operation (`run_concat`); the session of a run is a reachable
  one (`reachable_run`).
-/

namespace Draftboard

/-- One thing that a host does to a session. -/
inductive Operation : Type 1
  | tick (frame : Frame)
  | setMode (mode : Mode)
  | setModeNamed (name : String)
  | beginDrop (polygon : Shape Float)
  | replaceDiagram (shapes : List (Shape Float))
  | appendShapes (shapes : List (Shape Float))
  /-- Drawing, with any rasterizer in any state. -/
  | render {σ : Type} (rasterizer : Rasterizer σ) (state : σ)
  | setSettings (settings : Settings)
  | setCamera (camera : Camera Float)
  | setViewport (viewport : Viewport Float)

/-- A session, and what came of the operations that led to it. -/
structure History where
  session : Session := {}
  /-- The actions that were returned. -/
  actions : List Action := []
  /-- The answers of the rasterizer. -/
  log : Log := {}

/-- One log and then another. -/
def Log.append (log log' : Log) : Log := ⟨log.made ++ log'.made, log.stood ++ log'.stood⟩

theorem Log.count_answers_append (log log' : Log) (image : Raster) :
    (log.append log').answers.count image = log.answers.count image + log'.answers.count image := by
  simp only [append, answers, List.count_append]
  omega

namespace Operation

/-- What an operation comes to. A mode that is not known changes nothing. -/
def perform (s : Session) : Operation → History
  | tick frame => { session := (s.tick frame).1, actions := (s.tick frame).2 }
  | setMode mode => { session := (s.setMode mode).1, actions := (s.setMode mode).2 }
  | setModeNamed name =>
    match s.setModeNamed name with
    | .ok (t, actions) => { session := t, actions }
    | .error _ => { session := s }
  | beginDrop polygon => { session := (s.beginDrop polygon).1, actions := (s.beginDrop polygon).2 }
  | replaceDiagram shapes =>
    { session := (s.replaceDiagram shapes).1, actions := (s.replaceDiagram shapes).2 }
  | appendShapes shapes =>
    { session := (s.appendShapes shapes).1, actions := (s.appendShapes shapes).2 }
  | render rasterizer state =>
    { session := (s.render rasterizer state).2.1
      log := (s.render rasterizer.recording (state, {})).2.2.2 }
  | setSettings settings => { session := { s with settings } }
  | setCamera camera => { session := { s with camera } }
  | setViewport viewport => { session := { s with viewport } }

/-- An operation is a step of the session, or changes nothing. -/
theorem step_perform (s : Session) (op : Operation) :
    Session.Step s (op.perform s).session ∨ (op.perform s).session = s := by
  cases op with
  | tick frame => exact .inl (.tick s frame)
  | setMode mode => exact .inl (.setMode s mode)
  | setModeNamed name =>
    cases h : s.setModeNamed name with
    | ok result =>
      simp only [perform, h]
      exact .inl (.setModeNamed h)
    | error unknown =>
      simp only [perform, h]
      exact .inr trivial
  | beginDrop polygon => exact .inl (.beginDrop s polygon)
  | replaceDiagram shapes => exact .inl (.replaceDiagram s shapes)
  | appendShapes shapes => exact .inl (.appendShapes s shapes)
  | render rasterizer state => exact .inl (.render rasterizer s state)
  | setSettings settings => exact .inl (.settings s settings)
  | setCamera camera => exact .inl (.camera s camera)
  | setViewport viewport => exact .inl (.viewport s viewport)

end Operation

/-- The history with one more operation. -/
def History.extend (h : History) (op : Operation) : History :=
  let outcome := op.perform h.session
  ⟨outcome.session, h.actions ++ outcome.actions, h.log.append outcome.log⟩

/-- What operations come to, one after another, from the start. -/
def run (ops : List Operation) : History := ops.foldl History.extend {}

theorem run_concat (ops : List Operation) (op : Operation) :
    run (ops ++ [op]) = (run ops).extend op := by
  rw [run, List.foldl_append]
  rfl

theorem reachable_run (ops : List Operation) : Session.Reachable (run ops).session := by
  induction ops using List.reverseRecOn with
  | nil => exact .start
  | append_singleton ops op ih =>
    rw [run_concat]
    rcases op.step_perform (run ops).session with hstep | hsame
    · exact .step ih hstep
    · exact (hsame.symm ▸ ih : Session.Reachable (op.perform (run ops).session).session)

end Draftboard
