import Draftboard.Number.Decimal
import Draftboard.Text.Blank

/-!
# Draftboard.Number.Literal

Reading a number.

A literal is an optional sign followed by either one of the words `inf`, `infinity` and `nan`
in any case, or by decimal digits with an optional point among or around them and an optional
exponent. At least one digit stands before or after the point, and nothing stands around the
literal, no blank either. Its value is the number nearest to the decimal it spells, ties to
even, with infinity beyond the largest one.
-/

namespace Draftboard.Literal

open Text (sameIgnoringCase)

def infinity : Float := Float.ofBits 0x7FF0000000000000

/-- The value that is not a number. -/
def nan : Float := Float.ofBits 0x7FF8000000000000

/-- Splits off a leading sign; the flag says whether it is a minus. -/
def takeSign : List Char → Bool × List Char
  | '-' :: r => (true, r)
  | '+' :: r => (false, r)
  | s => (false, s)

/-- The number that a run of decimal digits spells. -/
def digitsValue (s : List Char) : Nat := s.foldl (fun n c => 10 * n + (c.toNat - 48)) 0

/-- An exponent mark, sign and digits, or nothing at all. -/
def readExponent? : List Char → Option Int
  | [] => some 0
  | c :: r =>
    if c = 'e' ∨ c = 'E' then
      let (negative, digits) := takeSign r
      if digits ≠ [] ∧ digits.all Char.isDigit then
        some (if negative then -(digitsValue digits : Int) else digitsValue digits)
      else none
    else none

/-- The digits after a point, if there is one, and the text after them. -/
def takeFraction : List Char → List Char × List Char
  | '.' :: r => (r.takeWhile Char.isDigit, r.dropWhile Char.isDigit)
  | s => ([], s)

/-- The decimal that an unsigned literal spells. -/
def readDecimal? (s : List Char) : Option Decimal :=
  let whole := s.takeWhile Char.isDigit
  let (fraction, rest) := takeFraction (s.dropWhile Char.isDigit)
  if whole = [] ∧ fraction = [] then none
  else (readExponent? rest).map fun e =>
    ⟨digitsValue (whole ++ fraction), e - fraction.length⟩

/-- The value of an unsigned literal. -/
def readMagnitude? (s : List Char) : Option Float :=
  if sameIgnoringCase s "inf".toList || sameIgnoringCase s "infinity".toList then some infinity
  else if sameIgnoringCase s "nan".toList then some nan
  else (readDecimal? s).map Decimal.toFloat

/-- The value of a literal, or nothing if the text is none. -/
def read? (s : List Char) : Option Float :=
  let (negative, rest) := takeSign s
  (readMagnitude? rest).map fun v => if negative then -v else v

end Draftboard.Literal
