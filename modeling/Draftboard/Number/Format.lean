import Draftboard.Number.Decimal

/-!
# Draftboard.Number.Format

The texts of numbers.

* `fixedPoint` writes a given number of places after the point.
* `Layout.write` writes the digits of a decimal, positionally for a range of magnitudes and
  with an exponent outside of it. The layouts of the program's outputs are values of
  `Layout`, beside each other at the end.
-/

namespace Draftboard.Format

/-! ### Digits -/

/-- The decimal digits of `n`, with zeros in front to make at least `count` of them. -/
def padded (count n : Nat) : List Char :=
  let digits := Nat.toDigits 10 n
  List.replicate (count - digits.length) '0' ++ digits

/-- The digits of `n` with a point before the last `places` of them. -/
def withPoint (places n : Nat) : List Char :=
  let digits := padded (places + 1) n
  digits.take (digits.length - places) ++ '.' :: digits.drop (digits.length - places)

/-- The sign of a number as written before its digits. -/
def signOf (x : Float) : List Char := if Exact.isNegative x then ['-'] else []

/-! ### A given number of places -/

/-- A number with `places` digits after the point, ties to even. The sign of a zero is kept,
also of one that only rounding made. -/
def fixedPoint (places : Nat) (x : Float) : List Char :=
  if x.isNaN then ['N', 'a', 'N']
  else signOf x ++
    if x.isInf then ['i', 'n', 'f'] else withPoint places (Decimal.atPlaces places x).digits

/-! ### The digits of a decimal -/

/-- How the digits of a decimal are laid out: positionally if the exponent of the first digit
lies between `smallest` and `largest`, with an exponent otherwise. -/
structure Layout where
  smallest : Int
  largest : Int

/-- Positional notation, with at least one digit on each side of the point. -/
def positional (d : Decimal) : List Char :=
  if 0 ≤ d.exponent then
    Nat.toDigits 10 d.digits ++ List.replicate d.exponent.toNat '0' ++ ['.', '0']
  else withPoint (-d.exponent).toNat d.digits

/-- The first digit, the others after a point if there are any, and a signed exponent. -/
def scientific (d : Decimal) : List Char :=
  let exponent := d.leading
  let mantissa := match Nat.toDigits 10 d.digits with
    | [] => []
    | [c] => [c]
    | c :: rest => c :: '.' :: rest
  mantissa ++ 'e' :: (if exponent < 0 then '-' else '+') :: Nat.toDigits 10 exponent.natAbs

/-- Writes a decimal in the layout. -/
def Layout.write (l : Layout) (d : Decimal) : List Char :=
  if l.smallest ≤ d.leading ∧ d.leading ≤ l.largest then positional d else scientific d

/-- Numbers of 64 bits are written positionally from `0.00001` to `9999999999999999.0`. -/
def layout64 : Layout := ⟨-5, 15⟩

/-- Numbers of 32 bits are written positionally from `0.000001` to `9999999999999.0`. -/
def layout32 : Layout := ⟨-6, 12⟩

/-- A finite number with the fewest digits that read back. -/
def shortest (x : Float) : List Char := signOf x ++ layout64.write (Decimal.shortest x)

/-- A finite 32-bit number with the fewest digits that read back. -/
def shortest32 (x : Float32) : List Char :=
  (if x.toBits.toNat.testBit 31 then ['-'] else []) ++ layout32.write (Decimal.shortest32 x)

example : layout64.write ⟨1, -5⟩ = "0.00001".toList ∧ layout64.write ⟨1, 15⟩ = "1000000000000000.0".toList ∧
    layout64.write ⟨1, 16⟩ = "1e+16".toList ∧ layout64.write ⟨15, -8⟩ = "1.5e-7".toList := by decide

end Draftboard.Format
