import Draftboard.Geometry.Triangulation
import Draftboard.Style

/-!
# Draftboard.Shape.Basic

Shapes: what is drawn, how, and what has been worked out about it.

* A shape has a geometry of one of five kinds and a style.
* It also keeps two derived values: the triangles of its filled polygon and the image of its
  label. Every change of the geometry drops the triangles. The image belongs to the text of a
  label and not to its place, so it stays when a label moves.
* Equality of shapes looks at geometry and style only, and of a circle only at centre and
  radius.
-/

namespace Draftboard

/-- A label image that is owned by whoever made it. -/
abbrev Raster := Nat

/-! ### Geometry -/

/-- The kinds of shape. -/
inductive Kind
  | line
  | circle
  | polyline
  | curve
  | label
deriving DecidableEq, Repr

namespace Kind

def all : List Kind := [line, circle, polyline, curve, label]

/-- The name of a kind in reports. -/
def name : Kind → String
  | line => "line"
  | circle => "circle"
  | polyline => "multi_line"
  | curve => "bezier"
  | label => "text"

end Kind

/-- The points of a shape. -/
inductive Geometry (α : Type) where
  /-- A straight segment. -/
  | line (start stop : Point α)
  /-- A circle through a point of its rim. -/
  | circle (center rim : Point α)
  /-- A polyline, which is a closed ring if the last vertex repeats the first. -/
  | polyline (vertices : List (Point α))
  /-- A curve from `start` to `stop` that is shaped by the control points between them. -/
  | curve (start : Point α) (controls : List (Point α)) (stop : Point α)
  /-- A text at its anchor. -/
  | label (anchor : Point α) (text : String)

namespace Geometry

variable {α : Type}

def kind : Geometry α → Kind
  | line .. => .line
  | circle .. => .circle
  | polyline .. => .polyline
  | curve .. => .curve
  | label .. => .label

variable [Scalar α]

/-- The radius of a circle. -/
def radius? : Geometry α → Option α
  | circle center rim => some (center.distance rim)
  | _ => none

/-- The circle around `center` with its rim point to the right of it. -/
def circleOf (center : Point α) (radius : α) : Geometry α :=
  .circle center (center + ⟨radius, Scalar.zero⟩)

/-- The vertices of a polyline or the control points of a curve. -/
def vertices : Geometry α → List (Point α)
  | polyline vertices => vertices
  | curve _ controls _ => controls
  | _ => []

/-- Whether a polyline is a ring: more than two vertices, the last one equal to the first. -/
def isClosed : Geometry α → Bool
  | polyline vertices =>
    2 < vertices.length && vertices.head? == vertices.getLast?
  | _ => false

/-- Whether a text stands between dollar signs. -/
def isMath (text : String) : Bool := (Text.inside? '$' '$' text.toList).isSome

/-- Whether the geometry is a label that stands between dollar signs. -/
def isMathLabel : Geometry α → Bool
  | label _ text => isMath text
  | _ => false

/-- Equality of what is drawn. -/
def same : Geometry α → Geometry α → Bool
  | line a b, line c d => a == c && b == d
  | circle c r, circle d s => c == d && c.distance r == d.distance s
  | polyline vs, polyline ws => vs == ws
  | curve a cs b, curve c ds d => a == c && b == d && cs == ds
  | label a t, label b u => a == b && t == u
  | _, _ => false

/-! #### Moving points -/

/-- Moves the first point: start, centre, anchor or first vertex. -/
def setStart (p : Point α) : Geometry α → Geometry α
  | line _ stop => line p stop
  | circle _ rim => circle p rim
  | polyline [] => polyline []
  | polyline (_ :: vertices) => polyline (p :: vertices)
  | curve _ controls stop => curve p controls stop
  | label _ text => label p text

/-- Moves the last point: end, rim or last vertex. A label has none. -/
def setStop (p : Point α) : Geometry α → Geometry α
  | line start _ => line start p
  | circle center _ => circle center p
  | polyline vertices =>
    polyline (if vertices.isEmpty then [] else vertices.dropLast ++ [p])
  | curve start controls _ => curve start controls p
  | label anchor text => label anchor text

/-- Moves every point by an offset. -/
def translate (offset : Point α) : Geometry α → Geometry α
  | line start stop => line (start + offset) (stop + offset)
  | circle center rim => circle (center + offset) (rim + offset)
  | polyline vertices => polyline (vertices.map (· + offset))
  | curve start controls stop =>
    curve (start + offset) (controls.map (· + offset)) (stop + offset)
  | label anchor text => label (anchor + offset) text

omit [Scalar α] in
@[simp] theorem kind_setStart (p : Point α) (g : Geometry α) : (g.setStart p).kind = g.kind := by
  rcases g with _ | _ | vs | _ | _ <;> try rfl
  cases vs <;> rfl

omit [Scalar α] in
@[simp] theorem kind_setStop (p : Point α) (g : Geometry α) : (g.setStop p).kind = g.kind := by
  cases g <;> rfl

@[simp] theorem kind_translate (offset : Point α) (g : Geometry α) :
    (g.translate offset).kind = g.kind := by
  cases g <;> rfl

end Geometry

/-! ### Shapes -/

/-- A geometry with a style, and what has been derived from the geometry so far. -/
structure Shape (α : Type) where
  geometry : Geometry α
  style : Style := {}
  /-- The triangles of the filled polygon, once they are asked for. -/
  fan : Option (List Triangle) := none
  /-- The image of the label, once it is made. -/
  raster : Option Raster := none

namespace Shape

variable {α : Type}

def kind (s : Shape α) : Kind := s.geometry.kind

/-- The shape with another geometry. The triangles are dropped, and the image unless the shape
was a label. -/
def withGeometry (s : Shape α) (g : Geometry α) : Shape α :=
  { s with
    geometry := g
    fan := none
    raster := if s.kind = .label then s.raster else none }

def withStyle (s : Shape α) (style : Style) : Shape α := { s with style }

variable [Scalar α]

instance : BEq (Shape α) where
  beq s t := s.geometry.same t.geometry && s.style == t.style

def setStart (s : Shape α) (p : Point α) : Shape α := s.withGeometry (s.geometry.setStart p)

def setStop (s : Shape α) (p : Point α) : Shape α := s.withGeometry (s.geometry.setStop p)

def translate (s : Shape α) (offset : Point α) : Shape α :=
  s.withGeometry (s.geometry.translate offset)

/-- Moves a control point, if the shape is a curve that has it. -/
def setControl? (s : Shape α) (index : Nat) (p : Point α) : Option (Shape α) :=
  match s.geometry with
  | .curve start controls stop =>
    if index < controls.length then
      some (s.withGeometry (.curve start (controls.set index p) stop))
    else none
  | _ => none

/-- Appends a vertex, if the shape is a polyline. -/
def pushVertex? (s : Shape α) (p : Point α) : Option (Shape α) :=
  match s.geometry with
  | .polyline vertices => some (s.withGeometry (.polyline (vertices ++ [p])))
  | _ => none

/-! #### Derived values -/

/-- The triangles that fill the shape, and the shape with them kept. There are none for an
unfilled shape, for another kind than a polyline, and for a polygon with too few corners. -/
def triangles (s : Shape α) : Option (List Triangle) × Shape α :=
  match s.style.filled, s.geometry with
  | true, .polyline vertices =>
    match s.fan with
    | some fan => (some fan, s)
    | none =>
      match triangulate vertices with
      | .ok fan => (some fan, { s with fan := some fan })
      | .error _ => (none, s)
  | _, _ => (none, s)

/-- The shape without its image, and the image. -/
def takeRaster (s : Shape α) : Option Raster × Shape α := (s.raster, { s with raster := none })

end Shape

end Draftboard
