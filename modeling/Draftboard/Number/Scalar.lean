import Draftboard.Number.Exact

/-!
# Draftboard.Number.Scalar

What geometry asks of a coordinate.

* Points, curves, polygons, cameras, shapes and display lists are written over any type
  with these operations. The program runs them on 64-bit numbers; a law that needs exact
  arithmetic is stated over a field instead.
* Every constant is a quotient of two whole numbers (`Scalar.ratio`), so it has one reading
  in each of them: rounded in the first, exact in the second.
-/

namespace Draftboard

/-- The arithmetic of a coordinate: the field operations, order, and the functions that
drawing needs. -/
class Scalar (α : Type) extends Add α, Sub α, Mul α, Div α, Neg α, BEq α, LT α, LE α where
  /-- A whole number as a coordinate. -/
  ofNat : Nat → α
  decLt : DecidableLT α
  decLe : DecidableLE α
  /-- `a * b + c`, rounded once. -/
  fusedMulAdd : α → α → α → α
  /-- The nearest whole number, halves away from zero. -/
  roundHalfAway : α → α
  /-- The whole part, as a count. -/
  toCount : α → Nat
  sqrt : α → α
  cbrt : α → α
  /-- The length of the vector with the two components. -/
  hypot : α → α → α
  sin : α → α
  cos : α → α
  /-- The angle from the first axis of the vector with ordinate first, abscissa second. -/
  atan2 : α → α → α
  pi : α

instance (priority := low) Scalar.decidableLT {α : Type} [Scalar α] : DecidableLT α := Scalar.decLt

instance (priority := low) Scalar.decidableLE {α : Type} [Scalar α] : DecidableLE α := Scalar.decLe

instance : Scalar Float where
  ofNat := Float.ofNat
  decLt := fun a b => inferInstanceAs (Decidable (a < b))
  decLe := fun a b => inferInstanceAs (Decidable (a ≤ b))
  fusedMulAdd := Exact.fusedMulAdd
  roundHalfAway := Exact.roundHalfAway
  toCount := Exact.toCount
  sqrt := Float.sqrt
  cbrt := Exact.cbrt
  hypot := Exact.hypot
  sin := Exact.sin
  cos := Exact.cos
  atan2 := Float.atan2
  pi := Exact.pi

namespace Scalar

variable {α : Type} [Scalar α]

/-- The constant `a / b`. -/
def ratio (a b : Nat) : α := ofNat a / ofNat b

def ofInt : Int → α
  | .ofNat n => ofNat n
  | .negSucc n => -ofNat (n + 1)

def zero : α := ofNat 0

def one : α := ofNat 1

/-- The smaller of two values. A value that differs from itself is no value: the other one
is taken. -/
def min (a b : α) : α := if a < b then a else if b == b then b else a

/-- The larger of two values, with the same rule for what is no value. -/
def max (a b : α) : α := if b < a then a else if b == b then b else a

/-- The value of the interval from `lo` to `hi` nearest to `x`. -/
def clamp (lo hi x : α) : α := if x < lo then lo else if hi < x then hi else x

/-- The power `x ^ n`, by squaring: the squares whose bits are set in `n` are multiplied up,
lowest first. -/
def power (x : α) (n : Nat) : α := go one x n
where
  /-- Multiplies `acc` by the powers of `square` that `n` asks for. -/
  go (acc square : α) (n : Nat) : α :=
    let acc := if n % 2 = 1 then acc * square else acc
    if n / 2 = 0 then acc else go acc (square * square) (n / 2)
  termination_by n

/-- Degrees as radians. -/
def radians (degrees : α) : α := degrees * (pi / ofNat 180)

end Scalar

end Draftboard
