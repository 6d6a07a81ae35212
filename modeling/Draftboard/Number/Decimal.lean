import Draftboard.Number.Exact

/-!
# Draftboard.Number.Decimal

Decimal numbers, and the two ways of choosing one for a binary number.

* `Decimal.atPlaces` rounds the exact binary value to a grid of powers of ten; a tie goes to the
  even neighbour (`roundHalfEven`).
* `Decimal.shortest` takes the decimal with the fewest digits among those that read back to
  the same binary number, and of two with equally many the nearer one. If any point of a
  grid reads back, one of the two neighbours of the value on that grid does, so only those
  two are tried on each grid.
-/

namespace Draftboard

open Float.Model (UnpackedFloat Format)

/-- The decimal number `digits * 10 ^ exponent`. -/
structure Decimal where
  digits : Nat
  exponent : Int
deriving DecidableEq, Repr

/-! ### Rounding a quotient -/

/-- The whole number nearest to `num / den`; of two equally near, the even one. -/
def roundHalfEven (num den : Nat) : Nat :=
  let q := num / den
  match compare (2 * (num % den)) den with
  | .lt => q
  | .eq => q + q % 2
  | .gt => q + 1

namespace Decimal

/-! ### Sizes -/

/-- How many decimal digits a number is written with. -/
def width (n : Nat) : Nat := (Nat.toDigits 10 n).length

/-- The power of ten with a natural exponent. -/
def tenTo (n : Nat) : Nat := Nat.pow 10 n

/-- The exponent `k` with `10 ^ k ≤ num / den < 10 ^ (k + 1)`, for a positive quotient. -/
def orderOf (num den : Nat) : Int :=
  if den ≤ num then (width (num / den) : Int) - 1
  else -(width ((den - 1) / num) : Int)

/-- The value as a quotient of whole numbers. -/
def fraction (m : Nat) (e : Int) : Nat × Nat := (m <<< e.toNat, 1 <<< (-e).toNat)

/-- The quotient `num / den` in units of `10 ^ unit`. -/
def inUnits (num den : Nat) (unit : Int) : Nat × Nat :=
  (num * tenTo (-unit).toNat, den * tenTo unit.toNat)

/-- The same decimal number with no trailing zero among its digits. -/
def strip (d : Decimal) : Decimal :=
  if h : 0 < d.digits ∧ d.digits % 10 = 0 then
    strip ⟨d.digits / 10, d.exponent + 1⟩
  else d
termination_by d.digits
decreasing_by
  exact Nat.div_lt_self h.1 (by decide)

/-- The exponent of the first digit. -/
def leading (d : Decimal) : Int := d.exponent + width d.digits - 1

/-! ### Rounding to a grid -/

/-- The multiple of `10 ^ unit` nearest to `m * 2 ^ e`, ties to even. -/
def onGrid (unit : Int) (m : Nat) (e : Int) : Decimal :=
  let (num, den) := fraction m e
  let (num, den) := inUnits num den unit
  ⟨roundHalfEven num den, unit⟩

/-- The magnitude of `x`, rounded to that many digits after the point. -/
def atPlaces (places : Nat) (x : Float) : Decimal :=
  let (m, e) := Exact.magnitude (Exact.unpack x)
  onGrid (-places) m e

/-! ### The fewest digits that read back -/

/-- The reals that round to `m * 2 ^ e` in a binary format, in quarters of a unit in the last
place: from `lower` to `upper`, ends included if `closed`. Below a power of two the numbers
lie twice as close, so there the interval is shorter. -/
structure Interval where
  lower : Nat
  upper : Nat
  /-- Whether the ends themselves round to the value, which they do if its mantissa is even. -/
  closed : Bool

/-- The rounding interval of `m * 2 ^ e`. -/
def interval (fmt : Format) (m : Nat) (e : Int) : Interval where
  lower := if m = 1 <<< fmt.mantissaBitsWithoutImplicit ∧ fmt.minExponent < e then 4 * m - 1 else 4 * m - 2
  upper := 4 * m + 2
  closed := m % 2 = 0

/-- Whether `c` units of `num / den` quarters each lie in the interval. -/
def Interval.contains (i : Interval) (c num den : Nat) : Bool :=
  let x := c * num
  let lo := i.lower * den
  let hi := i.upper * den
  if i.closed then lo ≤ x && x ≤ hi else lo < x && x < hi

/-- The neighbour on the grid of `10 ^ unit` that reads back to `m * 2 ^ e`, if one does. -/
def candidate (fmt : Format) (m : Nat) (e : Int) (unit : Int) : Option Decimal :=
  let i := interval fmt m e
  let (num, den) := fraction (4 * m) (e - 2)
  let (num, den) := inUnits num den unit
  let below := num / den
  let (unitNum, unitDen) := fraction (tenTo unit.toNat) (2 - e)
  let inside c := i.contains c unitNum (unitDen * tenTo (-unit).toNat)
  let nearer := if roundHalfEven num den = below then [below, below + 1] else [below + 1, below]
  (nearer.find? inside).map (⟨·, unit⟩)

/-- The first grid, from coarse to fine, with a point that reads back; seventeen digits
always do. -/
def search (fmt : Format) (m : Nat) (e : Int) (order : Int) : Nat → Decimal
  | 0 => onGrid (order - 16) m e
  | k + 1 => (candidate fmt m e (order - (16 - k))).getD (search fmt m e order k)

/-- The decimal with the fewest digits that reads back to `m * 2 ^ e`. -/
def shortestOf (fmt : Format) (m : Nat) (e : Int) : Decimal :=
  let (num, den) := fraction m e
  strip (search fmt m e (orderOf num den) 17)

/-- The decimal with the fewest digits that reads back to the magnitude of `x`. -/
def shortest (x : Float) : Decimal :=
  match Exact.unpack x with
  | .finite _ m e _ => shortestOf Format.binary64 m e
  | _ => ⟨0, 0⟩

/-- The decimal with the fewest digits that reads back to the magnitude of a 32-bit number. -/
def shortest32 (x : Float32) : Decimal :=
  match x.toModel.unpack with
  | .finite _ m e _ => shortestOf Format.binary32 m e
  | _ => ⟨0, 0⟩

/-! ### Reading back -/

/-- The number nearest to a decimal; too large a decimal gives infinity. -/
def toFloat (d : Decimal) : Float := .ofModel (.ofScientific d.digits d.exponent)

end Decimal

end Draftboard
