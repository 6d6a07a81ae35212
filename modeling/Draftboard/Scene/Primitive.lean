import Draftboard.Authoring.Mode
import Draftboard.Camera
import Draftboard.Geometry.Curve
import Draftboard.Shape.Basic

/-!
# Draftboard.Scene.Primitive

The drawing commands of a display list, and the strokes made of them.

All points and lengths of a primitive are in pixels, with the second axis pointing down.
-/

namespace Draftboard

/-- One drawing command. -/
inductive Primitive (α : Type) where
  /-- An open polyline. -/
  | stroke (points : List (Point α)) (dashed : Bool) (width : α) (color : Rgb)
  /-- Filled triangles. -/
  | fill (triangles : List (Point α × Point α × Point α)) (color : Rgb)
  /-- A filled circle. -/
  | disc (center : Point α) (radius : α) (color : Rgb)
  /-- A filled arrowhead. -/
  | arrowhead (tip left right : Point α) (color : Rgb)
  /-- A text, with its image if it has one. -/
  | label (anchor : Point α) (text : String) (raster : Option Raster) (color : Rgb)

/-- What a scene depends on besides the shapes. -/
structure View (α : Type) where
  camera : Camera α
  viewport : Viewport α
  mode : Mode
  /-- The pointer in the diagram. -/
  pointer : Point α
  /-- Whether the background is light. -/
  light : Bool
  /-- Whether filled shapes are drawn as outlines. -/
  wireframe : Bool

namespace View

variable {α : Type} [Scalar α]

def toScreen (v : View α) (p : Point α) : Point α := v.camera.toScreen v.viewport p

/-- The factor for stroke widths and arrowheads. -/
def pixelScale (v : View α) : α := v.viewport.interfaceScale * v.camera.zoom

/-! ### Strokes and arrowheads -/

/-- A stroke in a style, at least one pixel wide. -/
def stroke (v : View α) (style : Style) (color : Rgb) (points : List (Point α)) : Primitive α :=
  .stroke points style.dashed (Scalar.max (style.thickness.lineWidth * v.pixelScale) Scalar.one) color

/-- An arrowhead that points away from `source`; its sides make angles of 30 degrees with its
axis. -/
def arrowhead (tip source : Point α) (size : α) (color : Rgb) : Primitive α :=
  let angle := (tip - source).angle
  let half := Scalar.pi / Scalar.ofNat 6
  .arrowhead tip (tip - Point.polar (angle - half) size) (tip - Point.polar (angle + half) size) color

/-- The arrowheads of a polyline: at its first point and at its last one, along the segments
there. -/
def arrowheads (v : View α) (style : Style) (color : Rgb) (points : List (Point α)) :
    List (Primitive α) :=
  let size := Scalar.ofNat 20 * v.pixelScale
  let back := match points with
    | first :: second :: _ => if style.backArrow then [arrowhead first second size color] else []
    | _ => []
  let front := match points.reverse with
    | last :: before :: _ => if style.frontArrow then [arrowhead last before size color] else []
    | _ => []
  back ++ front

/-- A polyline with its arrowheads. -/
def drawPath (v : View α) (style : Style) (color : Rgb) (points : List (Point α)) :
    List (Primitive α) :=
  v.stroke style color points :: v.arrowheads style color points

/-! ### Circles -/

/-- How many segments a circle is drawn with: six times the cube root of its radius. -/
def circleSegments (radius : α) : Nat := Nat.max (Scalar.toCount (Scalar.ofNat 6 * Scalar.cbrt radius)) 1

/-- The ring of points around a centre, from the right of it and back. -/
def circlePoints (center : Point α) (radius : α) : List (Point α) :=
  let segments := circleSegments radius
  let step := Scalar.ofNat 2 * Scalar.pi / Scalar.ofNat segments
  (List.range (segments + 1)).map fun i => center + Point.polar (step * Scalar.ofNat i) radius

/-- How many points no list can hold: each takes 16 bytes, and a list takes less than `2 ^ 63` of
them. -/
def pointLimit : Nat := 1 <<< 59

/-- `circlePoints`, broken off if no list can hold them. -/
def checkedCirclePoints (center : Point α) (radius : α) : Except Crash (List (Point α)) :=
  if circleSegments radius + 1 < pointLimit then .ok (circlePoints center radius)
  else .error .capacityOverflow

end View

end Draftboard
