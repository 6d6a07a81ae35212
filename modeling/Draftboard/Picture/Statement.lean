import Draftboard.Picture.Scan
import Draftboard.Picture.Value
import Draftboard.Shape.Basic

/-!
# Draftboard.Picture.Statement

The statements of a picture text, and the shapes that they draw.

A statement is read under a `Placement`, which scales every point that it writes and turns it
clockwise. Each reader puts its own points in place as soon as it has read them.
-/

namespace Draftboard.Picture

open Text

/-! ### Placement -/

/-- The scale and the clockwise rotation of a picture. -/
structure Placement where
  scale : Float
  /-- In degrees. -/
  rotation : Float

/-- Nothing is moved. -/
def Placement.identity : Placement := ⟨1, 0⟩

def Placement.apply (placement : Placement) (p : Point Float) : Point Float :=
  (p.scale placement.scale).rotateClockwise placement.rotation

/-! ### Commands -/

/-- The commands, with whether they fill; a longer one comes before any that it starts with. -/
def commands : List (List Char × Bool) :=
  [("\\filldraw".toList, true), ("\\fill".toList, true), ("\\draw".toList, false)]

/-- Whether the command of a statement fills, and the text after it. A statement without a
command is drawn. -/
def takeCommand (statement : List Char) : Bool × List Char :=
  (commands.findSome? fun (command, fills) =>
    (dropPrefix? command statement).map fun rest => (fills, trimStart rest)).getD (false, statement)

/-! ### Modifiers -/

/-- One item of a modifier block. -/
inductive Modifier
  | dashed
  /-- Arrowheads at the end and at the start. -/
  | arrows (front back : Bool)
  | thickness (t : Thickness)
  | color (c : Color)
  /-- Nothing that is known here; it has no effect. -/
  | other

/-- Reads an item. It is compared with the known words before it is taken for a setting, a
stroke weight or a colour. -/
def Modifier.read (item : List Char) : Except ReadError Modifier :=
  if item = "dashed".toList then .ok .dashed
  else if item = "->".toList then .ok (.arrows true false)
  else if item = "<-".toList then .ok (.arrows false true)
  else if item = "<->".toList then .ok (.arrows true true)
  else match cutAt ['='] item with
    | some (key, value) =>
      if sameIgnoringCase (trim key) "color".toList then (readColor value).map .color
      else .ok .other
    | none =>
      match Thickness.ofToken? item with
      | some t => .ok (.thickness t)
      | none =>
        if (Ink.named? (colorName item)).isSome then (readColor item).map .color else .ok .other

/-- The style with the effect of a modifier. Later modifiers override earlier ones; arrowheads
are only ever added. -/
def Modifier.apply (s : Style) : Modifier → Style
  | dashed => { s with dashed := true }
  | arrows front back =>
    { s with frontArrow := s.frontArrow || front, backArrow := s.backArrow || back }
  | thickness t => { s with thickness := t }
  | color c => { s with color := c }
  | other => s

/-- The style of the items of a modifier block, from left to right. -/
def readModifiers (s : Style) : List (List Char) → Except ReadError Style
  | [] => .ok s
  | item :: rest =>
    match Modifier.read (trim item) with
    | .ok m => readModifiers (m.apply s) rest
    | .error e => .error e

/-- The style of a leading modifier block, and the text after it. The block ends at the first
closing bracket. -/
def takeModifiers (text : List Char) : Except ReadError (Style × List Char) :=
  match text with
  | '[' :: inner =>
    match cutAt [']'] inner with
    | none => .error (.noMatch (String.ofList text))
    | some (block, rest) =>
      match readModifiers {} (splitWhere (· == ',') block) with
      | .ok s => .ok (s, trimStart rest)
      | .error e => .error e
  | _ => .ok ({}, text)

/-! ### Bodies -/

def nodeMarker : List Char := "node at".toList

def circleMarker : List Char := "circle".toList

def arcMarker : List Char := "arc".toList

/-- The pieces of a path, split at each double hyphen from the left. -/
def pathPieces : List Char → List (List Char)
  | [] => [[]]
  | '-' :: '-' :: r => [] :: pathPieces r
  | c :: r => consHead c (pathPieces r)

namespace Placement

variable (placement : Placement)

/-- The first point in a text, in its place, and the text after it. -/
def takePoint (text : List Char) : Except ReadError (Point Float × List Char) :=
  match takeVector text with
  | .error e => .error e
  | .ok (p, rest) => .ok (placement.apply p, rest)

/-- A text at a point. Of the style it keeps the colour only. -/
def readLabel (body : List Char) (color : Color) : Except ReadError (Shape Float) :=
  let rest := match cutAt nodeMarker body with
    | some (_, rest) => rest
    | none => body
  match placement.takePoint rest with
  | .error e => .error e
  | .ok (anchor, rest) =>
    match braced? rest with
    | some text => .ok { geometry := .label anchor (String.ofList text), style := { color } }
    | none => .error (.noMatch (String.ofList body))

/-- A circle around a point. Its radius is scaled, and it has no arrowheads and no stroke weight of
its own. -/
def readCircle (body : List Char) (style : Style) : Except ReadError (Shape Float) :=
  match cutAt circleMarker body with
  | none => .error (.noMatch (String.ofList body))
  | some (left, right) =>
    match placement.takePoint left with
    | .error e => .error e
    | .ok (center, _) =>
      match readRadius right with
      | .error e => .error e
      | .ok radius =>
        .ok
          { geometry := .circleOf center (radius * placement.scale)
            style := { style with frontArrow := false, backArrow := false, thickness := default } }

/-- The vertices of a path, in their places. The word `cycle` repeats the first one as it lies. -/
def readVertices (first : Option (Point Float)) :
    List (List Char) → Except ReadError (List (Point Float))
  | [] => .ok []
  | piece :: rest =>
    let vertex :=
      if sameIgnoringCase (trim piece) "cycle".toList then
        match first with
        | some p => .ok p
        | none => badVector (trim piece)
      else (readVector piece).map placement.apply
    match vertex with
    | .error e => .error e
    | .ok p =>
      match readVertices (some (first.getD p)) rest with
      | .error e => .error e
      | .ok ps => .ok (p :: ps)

/-- A path: two vertices are a line, which is never filled, and more are a polyline. -/
def readPath (statement body : List Char) (style : Style) : Except ReadError (Shape Float) :=
  let pieces := pathPieces body
  if pieces.length < 2 then .error (.noMatch (String.ofList statement))
  else match placement.readVertices none pieces with
    | .error e => .error e
    | .ok [start, stop] =>
      .ok { geometry := .line start stop, style := { style with filled := false } }
    | .ok vertices => .ok { geometry := .polyline vertices, style }

/-- Reads a statement without blanks around it. The body is a label, a circle or a path by the
first of the marker words that it holds. -/
def readStatement (statement : List Char) : Except ReadError (Shape Float) :=
  let (fills, rest) := takeCommand statement
  match takeModifiers rest with
  | .error e => .error e
  | .ok (style, body) =>
    if occursIn nodeMarker body then placement.readLabel body style.color
    else if occursIn circleMarker body then placement.readCircle body { style with filled := fills }
    else if occursIn arcMarker body then .error (.unsupported (String.ofList statement))
    else placement.readPath statement body { style with filled := fills }

end Placement

end Draftboard.Picture
