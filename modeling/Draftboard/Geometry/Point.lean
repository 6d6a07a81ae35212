import Draftboard.Number.Scalar

/-!
# Draftboard.Geometry.Point

Points of the plane and displacements between them, in grid units with the second axis
pointing up.
-/

namespace Draftboard

/-- A point of the plane, or a displacement. -/
@[ext]
structure Point (α : Type) where
  x : α
  y : α

namespace Point

variable {α : Type}

instance [BEq α] : BEq (Point α) where
  beq p q := p.x == q.x && p.y == q.y

variable [Scalar α]

instance : Add (Point α) where
  add p q := ⟨p.x + q.x, p.y + q.y⟩

instance : Sub (Point α) where
  sub p q := ⟨p.x - q.x, p.y - q.y⟩

instance : Neg (Point α) where
  neg p := ⟨-p.x, -p.y⟩

/-- The point both of whose coordinates are zero. -/
def origin : Point α := ⟨Scalar.zero, Scalar.zero⟩

/-- The displacement stretched by a factor. -/
def scale (p : Point α) (factor : α) : Point α := ⟨p.x * factor, p.y * factor⟩

/-! ### Distances and areas -/

/-- The squared distance between two points; the last sum is rounded once. -/
def squaredDistance (p q : Point α) : α :=
  let dx := q.x - p.x
  let dy := q.y - p.y
  Scalar.fusedMulAdd dx dx (dy * dy)

def distance (p q : Point α) : α := Scalar.sqrt (squaredDistance p q)

/-- The length of a displacement. -/
def length (p : Point α) : α := Scalar.hypot p.x p.y

/-- The signed area of the parallelogram that two displacements span, positive if the second
lies to the left of the first. -/
def cross (p q : Point α) : α := p.x * q.y - p.y * q.x

/-! ### Turning and snapping -/

/-- The point turned about the origin by an angle, given by its sine and cosine. -/
def turn (p : Point α) (sin cos : α) : Point α := ⟨p.x * cos - p.y * sin, p.x * sin + p.y * cos⟩

/-- The point turned clockwise about the origin. -/
def rotateClockwise (p : Point α) (degrees : α) : Point α :=
  let angle := Scalar.radians (-degrees)
  p.turn (Scalar.sin angle) (Scalar.cos angle)

/-- The angle from the first axis to the displacement. -/
def angle (p : Point α) : α := Scalar.atan2 p.y p.x

/-- The displacement of the given length in the direction of an angle in radians. -/
def polar (angle length : α) : Point α := scale ⟨Scalar.cos angle, Scalar.sin angle⟩ length

/-- The nearest point whose coordinates are multiples of `1 / divisions`. -/
def snap (p : Point α) (divisions : α) : Point α :=
  ⟨Scalar.roundHalfAway (p.x * divisions) / divisions,
   Scalar.roundHalfAway (p.y * divisions) / divisions⟩

/-- The nearest point of the authoring grid, which has ten lines to a unit. -/
def snapToGrid (p : Point α) : Point α := p.snap (Scalar.ofNat 10)

end Point

end Draftboard
