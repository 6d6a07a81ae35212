import Draftboard.Number.Literal
import Draftboard.Geometry.Point
import Draftboard.Picture.Error
import Draftboard.Style

/-!
# Draftboard.Picture.Value

The values written in a picture text: points, lengths with a unit, and colours.
-/

namespace Draftboard.Picture

open Text

/-! ### Points -/

/-- The fault of a text that should be a vector. -/
def badVector {β : Type} (text : List Char) : Except ReadError β :=
  .error (.malformedVector (String.ofList text))

/-- The fault of a text that should be a number. -/
def badNumber {β : Type} (text : List Char) : Except ReadError β :=
  .error (.malformedNumber (String.ofList text))

/-- The point of two number literals with blanks around them, if both are literals. -/
def pointOf? (x y : List Char) : Option (Point Float) :=
  match Literal.read? (trim x), Literal.read? (trim y) with
  | some x, some y => some ⟨x, y⟩
  | _, _ => none

/-- A point in parentheses with a comma between its coordinates, which are split at the first
comma. -/
def vector? (literal : List Char) : Option (Point Float) :=
  (inside? '(' ')' literal).bind fun inner =>
    (cutAt [','] inner).bind fun (x, y) => pointOf? x y

def readVector (text : List Char) : Except ReadError (Point Float) :=
  match vector? (trim text) with
  | some p => .ok p
  | none => badVector (trim text)

/-- The first parenthesised point in a text, and the text after it. -/
def takeVector (text : List Char) : Except ReadError (Point Float × List Char) :=
  match cutAt ['('] text with
  | none => badVector (trim text)
  | some (_, afterOpen) =>
    match cutAt [')'] afterOpen with
    | none => badVector (trim text)
    | some (inner, rest) =>
      match readVector ('(' :: inner ++ [')']) with
      | .ok p => .ok (p, rest)
      | .error e => .error e

/-- A line of a vector list: two numbers with one comma or with blanks between them.
Parentheses are skipped wherever they stand. -/
def readPair (line : List Char) : Except ReadError (Point Float) :=
  let bare := line.filter fun c => c != '(' && c != ')'
  let parts := if bare.contains ',' then (splitWhere (· == ',') bare).map trim else words bare
  match parts with
  | [x, y] =>
    match Literal.read? x, Literal.read? y with
    | some x, some y => .ok ⟨x, y⟩
    | _, _ => badVector line
  | _ => badVector line

/-! ### Lengths -/

/-- The units of length and the factor that a value in each is multiplied by. -/
def units : List (String × Float) :=
  [("pt", Scalar.ratio 284528 10000), ("mm", Scalar.ratio 10 1), ("cm", Scalar.ratio 1 1),
    ("ex", Scalar.ratio 43 10), ("em", Scalar.ratio 237 100), ("bp", Scalar.ratio 283465 10000),
    ("dd", Scalar.ratio 266 10), ("pc", Scalar.ratio 2371 1000), ("in", Scalar.ratio 3927 10000)]

/-- The factor of a unit, in any case and with blanks around it. No unit is the same as `cm`. -/
def unitFactor (text : List Char) : Except ReadError Float :=
  let name := trim text
  if name = [] then .ok 1
  else match units.find? fun (unit, _) => sameIgnoringCase unit.toList name with
    | some (_, factor) => .ok factor
    | none => .error (.unknownUnit (String.ofList name))

/-- A number that is not negative and a unit, in parentheses. The unit starts at the first
letter. -/
def readRadius (text : List Char) : Except ReadError Float :=
  match inside? '(' ')' (trim text) with
  | none => badNumber (trim text)
  | some inner =>
    let inner := trim inner
    let number := inner.takeWhile fun c => !c.isAlpha
    match Literal.read? (trim number) with
    | none => badNumber inner
    | some value =>
      if value < 0 then badNumber inner
      else match unitFactor (inner.dropWhile fun c => !c.isAlpha) with
        | .ok factor => .ok (value * factor)
        | .error e => .error e

/-! ### Colours -/

/-- The name of a colour value: what stands before an exclamation mark. -/
def colorName (value : List Char) : List Char :=
  trim (match cutAt ['!'] value with
    | some (name, _) => name
    | none => value)

/-- The tint of a colour value: the percentage after an exclamation mark, or full. -/
def readTint (value : List Char) : Except ReadError Float :=
  match cutAt ['!'] value with
  | none => .ok 1
  | some (_, percent) =>
    match Literal.read? (trim percent) with
    | some percent => .ok (percent / Scalar.ofNat 100)
    | none => badNumber (trim percent)

/-- A colour value, `name` or `name!percent`. A name without an ink gives the default ink. -/
def readColor (value : List Char) : Except ReadError Color :=
  let value := trim value
  match readTint value with
  | .ok tint => .ok (Color.tinted ((Ink.named? (colorName value)).getD .black) tint)
  | .error e => .error e

end Draftboard.Picture
