import Draftboard.Authoring.Session
import Draftboard.Command.Configuration
import Draftboard.Command.Report
import Draftboard.Picture.Reader
import Draftboard.Picture.Writer

/-!
# Draftboard.Command.Basic

What the command line does with its input texts: `import` writes them back, `vectors` makes a
polygon of a list of vectors, `check` counts shapes and `scene` lists drawing commands.

Nothing is answered unless every input can be read. The first input replaces the diagram of a
fresh session, and the others are put on top of it.
-/

namespace Draftboard.Command

open Picture (Placement)

/-! ### Errors -/

/-- Why a file could not be read. -/
inductive FileError
  | notFound
  | permissionDenied
  /-- A folder stands where a text should. -/
  | isDirectory
  /-- Something else stands where a folder should. -/
  | notADirectory
  | nameTooLong
  /-- The bytes are no text. -/
  | invalidText
deriving DecidableEq, Repr

/-- Why a command has no answer. -/
inductive Error
  | configuration (e : ConfigurationError)
  | read (e : ReadError)
  | file (e : FileError)
  | noInput
  /-- The computation was broken off. -/
  | crash (c : Crash)
deriving DecidableEq, Repr

/-- The wording of the system for a file that cannot be read. -/
def FileError.message : FileError → String
  | notFound => "No such file or directory (os error 2)"
  | permissionDenied => "Permission denied (os error 13)"
  | isDirectory => "Is a directory (os error 21)"
  | notADirectory => "Not a directory (os error 20)"
  | nameTooLong => "File name too long (os error 36)"
  | invalidText => "stream did not contain valid UTF-8"

def Error.message : Error → String
  | configuration e => "invalid configuration: " ++ e.message
  | read e => "parse failed: " ++ e.message
  | file e => "read failed: " ++ e.message
  | noInput => "no input"
  | crash c => c.message

/-! ### Loading -/

/-- How a command writes shapes. -/
inductive OutputFormat
  /-- Statements. -/
  | text
  /-- Statements inside the picture environment. -/
  | picture
  | json
deriving DecidableEq, Repr

/-- Reads a text into a session by the given way of loading shapes. -/
def loadText (load : List (Shape Float) → Transition) (placement : Placement) (s : Session)
    (text : String) : Except Error Session :=
  match Picture.read placement text.toList with
  | .ok shapes => .ok (load shapes s).1
  | .error e => .error (.read e)

/-- Puts the shapes of each text on top of a session's, up to the first text that cannot be
read. -/
def appendAll (placement : Placement) (s : Session) : List String → Except Error Session
  | [] => .ok s
  | text :: rest =>
    match loadText Session.appendShapes placement s text with
    | .ok s => appendAll placement s rest
    | .error e => .error e

/-- The session of a list of texts. -/
def load (placement : Placement) : List String → Except Error Session
  | [] => .error .noInput
  | text :: rest =>
    match loadText Session.replaceDiagram placement {} text with
    | .ok s => appendAll placement s rest
    | .error e => .error e

/-- Shapes in an output format. -/
def emit (format : OutputFormat) (shapes : List (Shape Float)) : String :=
  match format with
  | .text => String.ofList (Picture.write shapes)
  | .picture => String.ofList (Picture.wrapped (Picture.write shapes))
  | .json => (Json.array (shapes.map Report.ofShape)).document

/-! ### The commands -/

/-- Reads every text and writes all shapes. -/
def importTexts (placement : Placement) (format : OutputFormat) (texts : List String) :
    Except Error String :=
  (load placement texts).map fun s => emit format s.diagram.shapes

/-- Makes a filled polygon of a list of vectors. -/
def vectors (placement : Placement) (format : OutputFormat) (text : String) : Except Error String :=
  match Picture.readVectors placement text.toList with
  | .ok shape => .ok (emit format [shape])
  | .error e => .error (.read e)

/-- How many shapes of a kind there are. -/
def count (shapes : List (Shape Float)) (k : Kind) : Nat := (shapes.filter (·.kind = k)).length

/-- A name in a column of ten characters, and a count. -/
def countLine (name : String) (n : Nat) : List Char :=
  name.toList ++ List.replicate (10 - name.length) ' ' ++ ' ' :: Nat.toDigits 10 n ++ ['\n']

/-- The counts of all kinds as JSON, with the fields in alphabetical order. -/
def countReport (shapes : List (Shape Float)) : Json :=
  .object
    [("kinds", .object
        ([Kind.curve, .circle, .line, .polyline, .label].map fun k => (k.name, .ofNat (count shapes k)))),
      ("total", .ofNat shapes.length)]

/-- Counts the shapes of every kind. -/
def check (placement : Placement) (format : OutputFormat) (texts : List String) : Except Error String :=
  (load placement texts).map fun s =>
    let shapes := s.diagram.shapes
    if format = .json then (countReport shapes).document
    else String.ofList ((Kind.all.flatMap fun k => countLine k.name (count shapes k)) ++
      countLine "total" shapes.length)

/-- Typesets nothing: every label gets the same image. -/
def noImages : Rasterizer Unit where
  rasterize _ state := (none, state)
  placeholder _ := 0

/-- Lists the drawing commands for a surface of the given size. -/
def scene (placement : Placement) (width height : Float) (texts : List String) : Except Error String :=
  match load placement texts with
  | .error e => .error e
  | .ok s =>
    let s := { s with viewport := { (default : Viewport Float) with width, height } }
    match s.checkedRender noImages () with
    | .error crash => .error (.crash crash)
    | .ok (primitives, _, _) => .ok (Report.ofScene primitives).document

end Draftboard.Command
