import Draftboard.Authoring.Mode
import Draftboard.Geometry.Point
import Draftboard.Shape.Basic

/-!
# Draftboard.Authoring.Input

What a session is fed, one frame at a time, and what it hands back.
-/

namespace Draftboard

/-! ### Frames -/

/-- A mouse button in one frame. -/
structure Button where
  /-- It went down in this frame. -/
  pressed : Bool := false
  /-- It is down at the end of this frame. -/
  held : Bool := false

/-- The keys that a session reacts to. -/
inductive Key
  /-- Finishes the shape that is being made. -/
  | commit
  /-- Takes back the last shape. -/
  | deleteLast
  | clearAll
  | toggleSnap
  | toggleWireframe
  | zoomIn
  | zoomOut
  | zoomReset
  | panLeft
  | panRight
  | panUp
  | panDown
  | moreControlPoints
  | fewerControlPoints
deriving DecidableEq, Repr

namespace Key

def all : List Key :=
  [commit, deleteLast, clearAll, toggleSnap, toggleWireframe, zoomIn, zoomOut, zoomReset, panLeft,
    panRight, panUp, panDown, moreControlPoints, fewerControlPoints]

def name : Key → String
  | commit => "commit"
  | deleteLast => "delete_last"
  | clearAll => "clear_all"
  | toggleSnap => "toggle_snap"
  | toggleWireframe => "toggle_wireframe"
  | zoomIn => "zoom_in"
  | zoomOut => "zoom_out"
  | zoomReset => "zoom_reset"
  | panLeft => "pan_left"
  | panRight => "pan_right"
  | panUp => "pan_up"
  | panDown => "pan_down"
  | moreControlPoints => "more_control_points"
  | fewerControlPoints => "fewer_control_points"

/-- Whether the key changes the view or the settings, and no shape. -/
def changesView : Key → Bool
  | commit | deleteLast | clearAll => false
  | _ => true

end Key

/-- One sample of the input. -/
structure Frame where
  /-- The pointer in the diagram, before it snaps. -/
  pointer : Point Float
  primary : Button := {}
  secondary : Button := {}
  /-- The keys that went down in this frame. -/
  keys : List Key := []
  /-- Whether a text field has the keyboard. -/
  typing : Bool := false

/-! ### Actions -/

/-- What the host of a session has to take notice of. -/
inductive Action
  /-- A shape was put on top of the diagram, at this index. -/
  | shapeCommitted (index : Nat) (kind : Kind)
  /-- The top shape was taken off the diagram. -/
  | shapeRemoved (kind : Kind)
  /-- All shapes, of this number, were removed. -/
  | diagramCleared (count : Nat)
  /-- This many shapes were loaded. -/
  | diagramLoaded (count : Nat)
  | modeChanged (mode : Mode)
  /-- A label image is no longer in use. -/
  | rasterReleased (raster : Raster)
  /-- The picture may look different now. -/
  | renderNeeded
deriving DecidableEq, Repr

end Draftboard
