import Draftboard.Geometry.Point

/-!
# Draftboard.Geometry.Curve

Bézier curves in Bernstein form.

* The curve of `n + 1` points is, at the parameter `t`, their sum weighted by
  `binomial n i * (1 - t) ^ (n - i) * t ^ i`. A curve is drawn and exported as the polyline
  through evenly spaced parameters, ends included; only the number of steps differs.
* The factorials of the weights are words of 64 bits. They are cut off from `factorial 21` on, so
  the weights are those of Bernstein for at most 21 points, and a divisor is cut down to zero from
  67 points on. The checked functions break off there (`Crash`); the others go on with the quotient
  zero.
-/

namespace Draftboard

/-- Why a computation is broken off. -/
inductive Crash
  | divisionByZero
  /-- A list that would take more bytes than there are addresses. -/
  | capacityOverflow
  /-- A subscript without an entry. -/
  | outOfRange
deriving DecidableEq, Repr

def Crash.message : Crash → String
  | divisionByZero => "attempt to divide by zero"
  | capacityOverflow => "capacity overflow"
  | outOfRange => "index out of bounds"

/-! ### Words -/

/-- The product of the numbers from 1 to `n`, cut off to 64 bits. -/
def factorial : Nat → UInt64
  | 0 => 1
  | n + 1 => UInt64.ofNat (n + 1) * factorial n

/-- What the number of ways to choose `i` things out of `n` is divided by. -/
def divisor (n i : Nat) : UInt64 := factorial i * factorial (n - i)

/-- The number of ways to choose `i` things out of `n`. -/
def binomial (n i : Nat) : UInt64 := if n < i then 0 else factorial n / divisor n i

/-- `binomial`, broken off where the divisor is zero. -/
def checkedBinomial (n i : Nat) : Except Crash UInt64 :=
  if n < i then .ok 0
  else if divisor n i = 0 then .error .divisionByZero
  else .ok (factorial n / divisor n i)

namespace Curve

variable {α : Type} [Scalar α]

/-! ### Weighted sums -/

/-- The weight of point `i` of a curve of degree `n`, which `choices` is the binomial of. -/
def weightOf (choices : UInt64) (n i : Nat) (t : α) : α :=
  Scalar.ofNat choices.toNat * Scalar.power (Scalar.one - t) (n - i) * Scalar.power t i

/-- The weight of point `i` of a curve of degree `n`. -/
def weight (n i : Nat) (t : α) : α := weightOf (binomial n i) n i t

/-- Adds up the weighted points, the first of which has the index `i`. -/
def weightedSum (n : Nat) (t : α) (acc : Point α) (i : Nat) : List (Point α) → Point α
  | [] => acc
  | p :: ps => weightedSum n t (acc + p.scale (weight n i t)) (i + 1) ps

/-- The point of the curve at a parameter. Without points it is the origin. -/
def evaluate (points : List (Point α)) (t : α) : Point α :=
  weightedSum (points.length - 1) t Point.origin 0 points

/-- The points of the curve at `0`, `1 / steps`, and so on up to `1`. -/
def sample (points : List (Point α)) (steps : Nat) : List (Point α) :=
  if steps = 0 then [evaluate points Scalar.zero]
  else (List.range (steps + 1)).map fun k => evaluate points (Scalar.ratio k steps)

/-! ### Checked sums -/

/-- `weightedSum`, up to the first weight that cannot be computed. -/
def checkedWeightedSum (n : Nat) (t : α) (acc : Point α) (i : Nat) :
    List (Point α) → Except Crash (Point α)
  | [] => .ok acc
  | p :: ps =>
    match checkedBinomial n i with
    | .error crash => .error crash
    | .ok choices => checkedWeightedSum n t (acc + p.scale (weightOf choices n i t)) (i + 1) ps

def checkedEvaluate (points : List (Point α)) (t : α) : Except Crash (Point α) :=
  checkedWeightedSum (points.length - 1) t Point.origin 0 points

def checkedSample (points : List (Point α)) (steps : Nat) : Except Crash (List (Point α)) :=
  if steps = 0 then (checkedEvaluate points Scalar.zero).map fun p => [p]
  else (List.range (steps + 1)).mapM fun k => checkedEvaluate points (Scalar.ratio k steps)

/-! ### Control points -/

/-- The points of the curve from `start` to `stop` that the control points shape. -/
def controlPolygon (start : Point α) (controls : List (Point α)) (stop : Point α) : List (Point α) :=
  start :: (controls ++ [stop])

/-- The number of steps of a curve on screen. -/
def screenSteps : Nat := 50

/-- The number of steps of a curve written as a polyline: two more for each control point. -/
def exportSteps (controlCount : Nat) : Nat := 23 + 2 * controlCount

/-- A polyline through `steps` segments has one point more than segments. -/
theorem length_sample (points : List (Point α)) (steps : Nat) :
    (sample points steps).length = steps + 1 := by
  unfold sample; split <;> simp_all

omit [Scalar α] in
theorem length_controlPolygon (start stop : Point α) (controls : List (Point α)) :
    (controlPolygon start controls stop).length = controls.length + 2 := by
  simp [controlPolygon]

end Curve

end Draftboard
