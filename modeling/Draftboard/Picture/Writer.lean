import Draftboard.Geometry.Curve
import Draftboard.Number.Format
import Draftboard.Shape.Basic

/-!
# Draftboard.Picture.Writer

Writing shapes as picture text, one statement and line for each.

Coordinates have up to four decimals and radii exactly two. A modifier is written where it
differs from the default and means something for the kind of shape. Picture text has no curves:
one is written as the polyline through `Curve.exportSteps` steps.
-/

namespace Draftboard.Picture

open Text

/-! ### Numbers and points -/

/-- The text without the zeros, and then the point, that it ends with. -/
def trimZeros (s : List Char) : List Char :=
  ((s.reverse.dropWhile (· == '0')).dropWhile (· == '.')).reverse

/-- A coordinate: up to four decimals, no trailing zero and no negative one. -/
def coordinate (x : Float) : List Char :=
  let s := trimZeros (Format.fixedPoint 4 x)
  if s = ['-', '0'] then ['0'] else s

def point (p : Point Float) : List Char := '(' :: coordinate p.x ++ ',' :: coordinate p.y ++ [')']

/-- The points of a path. -/
def path (points : List (Point Float)) : List Char := joinWith ['-', '-'] (points.map point)

/-! ### Modifiers -/

/-- A tint as a whole percentage. -/
def percentage (tint : Float) : Int :=
  Exact.toInt (Exact.roundHalfAway (tint * Scalar.ofNat 100))

/-- A whole number, with a sign if it is negative. -/
def wholeNumber (n : Int) : List Char :=
  (if n < 0 then ['-'] else []) ++ Nat.toDigits 10 n.natAbs

/-- The modifier of a colour, unless it is the default. Tints are whole percentages. -/
def colorItems (c : Color) : List (List Char) :=
  if c.isHalfBlack then ["color = gray".toList]
  else if c.isDefault then []
  else if c.tint < 1 then
    ["color = ".toList ++ c.ink.name.toList ++ '!' :: wholeNumber (percentage c.tint)]
  else ["color = ".toList ++ c.ink.name.toList]

/-- The modifier of arrowheads at the end and at the start. -/
def arrowItems : (front back : Bool) → List (List Char)
  | true, true => ["<->".toList]
  | false, true => ["<-".toList]
  | true, false => ["->".toList]
  | false, false => []

/-- The modifiers of a style that mean something for a kind of shape. -/
def modifierItems (s : Style) : Kind → List (List Char)
  | .label => colorItems s.color
  | .circle => colorItems s.color ++ (if s.dashed then ["dashed".toList] else [])
  | _ => colorItems s.color ++ (if s.dashed then ["dashed".toList] else []) ++
      arrowItems s.frontArrow s.backArrow ++
      (if s.thickness = .thin then [] else [s.thickness.token.toList])

/-- The modifier block, or nothing if there is no modifier. -/
def modifierBlock (s : Style) (k : Kind) : List Char :=
  match modifierItems s k with
  | [] => []
  | items => '[' :: joinWith [',', ' '] items ++ [']']

/-! ### Statements -/

/-- The command of a shape. Only circles and polylines are filled. -/
def command (s : Style) (k : Kind) : List Char :=
  if s.filled ∧ (k = .circle ∨ k = .polyline) then "\\filldraw".toList else "\\draw".toList

/-- What follows the modifiers. -/
def body : Geometry Float → List Char
  | .line start stop => point start ++ " -- ".toList ++ point stop
  | .circle center rim =>
    point center ++ " circle(".toList ++ Format.fixedPoint 2 (center.distance rim) ++ " cm)".toList
  | .polyline vertices => path vertices
  | .curve start controls stop =>
    path (Curve.sample (Curve.controlPolygon start controls stop) (Curve.exportSteps controls.length))
  | .label anchor text => "node at ".toList ++ point anchor ++ ' ' :: '{' :: text.toList ++ ['}']

/-- A shape as a line of picture text. -/
def writeShape (s : Shape Float) : List Char :=
  command s.style s.kind ++ modifierBlock s.style s.kind ++ ' ' :: body s.geometry ++ [';', '\n']

/-- Shapes as picture text, in order. -/
def write (shapes : List (Shape Float)) : List Char := shapes.flatMap writeShape

/-- A text inside the picture environment, with its last line ended. -/
def wrapped (text : List Char) : List Char :=
  "\\begin\x7btikzpicture\x7d\n".toList ++ text ++
    (if text = [] ∨ text.getLast? = some '\n' then [] else ['\n']) ++
    "\\end\x7btikzpicture\x7d\n".toList

end Draftboard.Picture
