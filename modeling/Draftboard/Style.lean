import Draftboard.Number.Scalar
import Draftboard.Text.Line

/-!
# Draftboard.Style

How a shape is drawn: ink and tint, stroke weight, dashes, arrowheads and fill.

A colour is one of nine inks with a tint. Tint 1 is the full ink; a lower tint blends it with
the background. Black is the default ink, and black on a dark background is drawn as white.
-/

namespace Draftboard

open Text (sameIgnoringCase trim words joinWith)

/-! ### Inks -/

/-- The inks, in the order of their indices. -/
inductive Ink
  | black
  | gray
  | red
  | blue
  | green
  | orange
  | yellow
  | cyan
  | magenta
deriving DecidableEq, Repr

namespace Ink

def all : List Ink := [black, gray, red, blue, green, orange, yellow, cyan, magenta]

instance : Inhabited Ink := ⟨black⟩

/-- The name as written in picture text. -/
def name : Ink → String
  | black => "black"
  | gray => "gray"
  | red => "red"
  | blue => "blue"
  | green => "green"
  | orange => "orange"
  | yellow => "yellow"
  | cyan => "cyan"
  | magenta => "magenta"

/-- Red, green and blue, each from 0 to 255. -/
def rgb : Ink → Nat × Nat × Nat
  | black => (0x00, 0x00, 0x00)
  | gray => (0x80, 0x80, 0x80)
  | red => (0xd9, 0x31, 0x22)
  | blue => (0x37, 0x16, 0xf5)
  | green => (0x8d, 0xfb, 0x4a)
  | orange => (0xe1, 0x86, 0x31)
  | yellow => (0xf6, 0xeb, 0x5f)
  | cyan => (0x70, 0xb7, 0xed)
  | magenta => (0xfc, 0x2f, 0x99)

/-- The ink of a name, in any case and with blanks around it. -/
def named? (text : List Char) : Option Ink :=
  all.find? fun ink => sameIgnoringCase ink.name.toList (trim text)

end Ink

theorem Ink.mem_all (ink : Ink) : ink ∈ Ink.all := by cases ink <;> decide

/-! ### Colours -/

/-- A colour as drawn, its components from 0 to 1. -/
structure Rgb where
  red : Float32
  green : Float32
  blue : Float32

/-- An ink with a tint. -/
structure Color where
  ink : Ink
  tint : Float

namespace Color

instance : Inhabited Color := ⟨.black, 1⟩

instance : BEq Color where
  beq c d := c.ink == d.ink && c.tint == d.tint

/-- The colour with the tint moved into the range from 0 to 1. -/
def tinted (ink : Ink) (tint : Float) : Color := ⟨ink, Scalar.clamp 0 1 tint⟩

/-- The full ink of an index; black for an index that has none. -/
def ofIndex (index : Nat) : Color := ⟨Ink.all.getD index .black, 1⟩

/-- Full black, which needs no mention in picture text. -/
def isDefault (c : Color) : Bool := c.ink == .black && 1 ≤ c.tint

/-- Black at half tint, to within the spacing of numbers at one. It is written as `gray`. -/
def isHalfBlack (c : Color) : Bool :=
  c.ink == .black && (c.tint - Scalar.ratio 1 2).abs < Scalar.ratio 1 (1 <<< 52)

/-- One component of the colour as drawn. A component of zero counts as full on a dark
background. -/
def component (light : Bool) (tint : Float) (level : Nat) : Float32 :=
  let full : Float := if level ≠ 0 || light then Scalar.ratio level 255 else 1
  let background : Float := if light then 1 else 0
  Exact.narrow (full * tint + background * (1 - tint))

/-- The colour as drawn on a light or a dark background. -/
def display (c : Color) (light : Bool) : Rgb :=
  let (r, g, b) := c.ink.rgb
  ⟨component light c.tint r, component light c.tint g, component light c.tint b⟩

end Color

/-! ### Stroke weights -/

/-- Stroke weights, from light to heavy. -/
inductive Thickness
  | ultraThin
  | veryThin
  | thin
  | thick
  | veryThick
  | ultraThick
deriving DecidableEq, Repr

namespace Thickness

def all : List Thickness := [ultraThin, veryThin, thin, thick, veryThick, ultraThick]

instance : Inhabited Thickness := ⟨thin⟩

/-- The words for a weight in picture text. -/
def token : Thickness → String
  | ultraThin => "ultra thin"
  | veryThin => "very thin"
  | thin => "thin"
  | thick => "thick"
  | veryThick => "very thick"
  | ultraThick => "ultra thick"

/-- The weight of a token, in any case and with any blanks around and between its words. -/
def ofToken? (text : List Char) : Option Thickness :=
  let normal := joinWith [' '] (words text)
  all.find? fun t => sameIgnoringCase t.token.toList normal

/-- The stroke width in pixels at nominal size. -/
def lineWidth {α : Type} [Scalar α] : Thickness → α
  | ultraThin => Scalar.ratio 1 2
  | veryThin => Scalar.ratio 5 4
  | thin => Scalar.ratio 155 100
  | thick => Scalar.ofNat 2
  | veryThick => Scalar.ofNat 3
  | ultraThick => Scalar.ofNat 5

end Thickness

/-! ### Styles -/

/-- The style of a shape. -/
structure Style where
  color : Color := default
  dashed : Bool := false
  /-- An arrowhead at the end point. -/
  frontArrow : Bool := false
  /-- An arrowhead at the start point. -/
  backArrow : Bool := false
  filled : Bool := false
  thickness : Thickness := .thin

namespace Style

instance : Inhabited Style := ⟨{}⟩

instance : BEq Style where
  beq s t := s.color == t.color && s.dashed == t.dashed && s.frontArrow == t.frontArrow &&
    s.backArrow == t.backArrow && s.filled == t.filled && s.thickness == t.thickness

end Style

end Draftboard
