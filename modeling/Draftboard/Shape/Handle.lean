import Draftboard.Shape.Basic
import Draftboard.Camera

/-!
# Draftboard.Shape.Handle

The handles of a curve, which can be grabbed and dragged while it is being made.

A handle is hit by a pointer within ten pixels of it at nominal size. The pixels are converted
to grid units, so the test itself compares squared distances in the diagram.
-/

namespace Draftboard

/-- A point of a shape that can be dragged. -/
inductive Handle
  | start
  | stop
  /-- A control point, by its index. -/
  | control (index : Nat)
deriving DecidableEq, Repr

/-- How far from a handle a pointer grabs it, in grid units. -/
def Handle.reach {α : Type} [Scalar α] (camera : Camera α) (viewport : Viewport α) : α :=
  camera.lengthToDiagram viewport (Scalar.ofNat 10 * viewport.interfaceScale)

namespace Shape

variable {α : Type}

/-- The handles of a curve in the order in which they are tried: start, end, control points. -/
def handles (s : Shape α) : List (Handle × Point α) :=
  match s.geometry with
  | .curve start controls stop =>
    (.start, start) :: (.stop, stop) :: controls.mapIdx fun i p => (.control i, p)
  | _ => []

variable [Scalar α]

/-- The first handle within `reach` of the pointer. -/
def handleAt (s : Shape α) (pointer : Point α) (reach : α) : Option Handle :=
  (s.handles.find? fun (_, p) => p.squaredDistance pointer ≤ reach * reach).map (·.1)

/-- The shape with a handle moved to `p`, or nothing if there is no such control point. The
ends can be dragged on any shape. -/
def drag? (s : Shape α) (p : Point α) : Option Handle → Option (Shape α)
  | none => none
  | some .start => some (s.setStart p)
  | some .stop => some (s.setStop p)
  | some (.control index) => s.setControl? index p

end Shape

end Draftboard
