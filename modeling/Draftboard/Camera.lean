import Draftboard.Geometry.Point

/-!
# Draftboard.Camera

What part of the plane is on screen, and how large.

Screen points are in pixels with the second axis pointing down, diagram points in grid units
with the second axis pointing up. The two are converted through the screen position of the
diagram's origin, taken with the axis up, and the pixels that one grid unit covers.
-/

namespace Draftboard

variable {α : Type} [Scalar α]

/-! ### Viewports -/

/-- The size of the drawing surface in pixels. -/
structure Viewport (α : Type) where
  width : α
  height : α
  /-- The width of a panel that takes up the left of the surface. -/
  panelOffset : α

namespace Viewport

/-- The surface for which interface elements have their nominal size. -/
def reference : Viewport α := ⟨Scalar.ofNat 1200, Scalar.ofNat 800, Scalar.zero⟩

instance : Inhabited (Viewport α) := ⟨reference⟩

/-- The pixels of one grid unit at zoom 1: the largest square cell of which six fit the height
and nine the width. -/
def baseSpacing (v : Viewport α) : α :=
  Scalar.min (v.height / Scalar.ofNat 6) (v.width / Scalar.ofNat 9)

/-- The factor for the sizes of handles, arrowheads and strokes. -/
def interfaceScale (v : Viewport α) : α :=
  v.baseSpacing /
    Scalar.min (Scalar.ofNat 1200 / Scalar.ofNat 6) (Scalar.ofNat 800 / Scalar.ofNat 9)

end Viewport

/-! ### Cameras -/

/-- Pan in pixels and zoom factor. -/
structure Camera (α : Type) where
  panX : α
  panY : α
  zoom : α

namespace Camera

/-- No pan, zoom 1. -/
def initial : Camera α := ⟨Scalar.zero, Scalar.zero, Scalar.one⟩

instance : Inhabited (Camera α) := ⟨initial⟩

/-- The pixels of one grid unit. -/
def pixelsPerUnit (c : Camera α) (v : Viewport α) : α := v.baseSpacing * c.zoom

/-- The screen position of the diagram's origin, with the axis up. -/
def originOnScreen (c : Camera α) (v : Viewport α) : Point α :=
  ⟨v.width / Scalar.ofNat 2 + v.panelOffset - c.panX, v.height / Scalar.ofNat 2 - c.panY⟩

/-- The diagram point at a screen point. -/
def toDiagram (c : Camera α) (v : Viewport α) (screen : Point α) : Point α :=
  (Point.mk screen.x (v.height - screen.y) - c.originOnScreen v).scale
    (Scalar.one / c.pixelsPerUnit v)

/-- The screen point at a diagram point. -/
def toScreen (c : Camera α) (v : Viewport α) (p : Point α) : Point α :=
  let up := p.scale (c.pixelsPerUnit v) + c.originOnScreen v
  ⟨up.x, v.height - up.y⟩

/-- The length in grid units of a length in pixels. -/
def lengthToDiagram (c : Camera α) (v : Viewport α) (pixels : α) : α := pixels / c.pixelsPerUnit v

/-! ### Moving the camera -/

/-- Zoom changes by an eighth at a time and stays between a quarter and two. -/
def withZoom (c : Camera α) (zoom : α) : Camera α :=
  { c with zoom := Scalar.clamp (Scalar.ratio 1 4) (Scalar.ofNat 2) zoom }

def zoomIn (c : Camera α) : Camera α := c.withZoom (c.zoom + Scalar.ratio 1 8)

def zoomOut (c : Camera α) : Camera α := c.withZoom (c.zoom - Scalar.ratio 1 8)

def resetZoom (c : Camera α) : Camera α := { c with zoom := Scalar.one }

/-- Pans by steps of ten pixels, to the right and up. -/
def pan (c : Camera α) (right up : Int) : Camera α :=
  { c with
    panX := c.panX + Scalar.ofInt right * Scalar.ofNat 10
    panY := c.panY + Scalar.ofInt up * Scalar.ofNat 10 }

end Camera

end Draftboard
