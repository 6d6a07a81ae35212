import Draftboard.Text.Line

/-!
# Draftboard.Authoring.Mode

Draw modes: which kind of shape the clicks of a session make.
-/

namespace Draftboard

open Text

/-- What is being drawn. -/
inductive Mode
  /-- A click for the start and a click for the end. -/
  | line
  /-- A click for the centre and a click for a point of the rim. -/
  | circle
  /-- A click for each vertex; a click on the first one closes the ring. -/
  | polyline
  /-- A click places a curve, whose handles are then dragged. -/
  | curve
  /-- Each click places a label. -/
  | label
  /-- A ready-made polygon follows the pointer until a click places it. -/
  | droppedPolygon
deriving DecidableEq, Repr

namespace Mode

def all : List Mode := [line, circle, polyline, curve, label, droppedPolygon]

instance : Inhabited Mode := ⟨line⟩

def name : Mode → String
  | line => "line"
  | circle => "circle"
  | polyline => "multi_line"
  | curve => "bezier"
  | label => "text"
  | droppedPolygon => "dropped_polygon"

/-- A name in lower case, with underscores for its hyphens and spaces. -/
def normalName (text : List Char) : List Char :=
  (trim text).map fun c => if c = '-' ∨ c = ' ' then '_' else c.toLower

/-- The mode of a name, which may be spelled with spaces or hyphens and in any case, or be one
of the short names of the polyline and the dropped polygon. -/
def named? (text : List Char) : Option Mode :=
  let name := normalName text
  if name = "polygon".toList ∨ name = "multiline".toList then some polyline
  else if name = "droppedpolygon".toList then some droppedPolygon
  else all.find? fun m => m.name.toList = name

example : all.map (fun m => named? m.name.toList) = all.map some := by decide

end Mode

/-- A name that no draw mode has. -/
structure UnknownMode where
  name : String
deriving DecidableEq, Repr

def UnknownMode.message (e : UnknownMode) : String := "unknown draw mode: " ++ e.name

end Draftboard
