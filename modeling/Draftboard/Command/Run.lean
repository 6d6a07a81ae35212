import Draftboard.Command.Diagnostic
import Draftboard.Command.Line

/-!
# Draftboard.Command.Run

A whole run: from the words of the command line and what can be read to what is printed.
-/

namespace Draftboard.Command

/-- What a run finds around it. -/
structure Surroundings where
  /-- The whole standard input. -/
  input : Except FileError String
  file : String → Except FileError String
  /-- The values of the environment's settings. -/
  scale : Option String
  rotation : Option String

/-- What a run leaves behind. -/
structure Outcome where
  status : Nat
  output : String
  /-- The last line for the reader, if the run failed for a cause. -/
  failure : Option String

/-- The names of the standard input among the files. -/
def isInput (path : String) : Bool := path == "-" || path == "/dev/stdin"

/-- The texts of files, in order. The standard input is read once; further times it is empty. -/
def readFiles (around : Surroundings) (inputRead : Bool) :
    List String → Except Error (List String)
  | [] => .ok []
  | path :: rest =>
    let text := if isInput path then if inputRead then .ok "" else around.input else around.file path
    match text with
    | .error e => .error (.file e)
    | .ok text => (readFiles around (inputRead || isInput path) rest).map (text :: ·)

/-- The texts of a vector list, each starting on a line of its own. -/
def joinLines (texts : List String) : String :=
  String.ofList (Text.joinWith ['\n'] (texts.map String.toList))

/-- The output of an invocation. The settings of the environment are looked at before any file. -/
def answer (around : Surroundings) (i : Invocation) : Except Error String :=
  match Configuration.ofEnvironment around.scale around.rotation with
  | .error e => .error (.configuration e)
  | .ok placement =>
    match readFiles around false i.files with
    | .error e => .error e
    | .ok texts =>
      let placement := Configuration.override placement i.scale i.rotation
      match i.name with
      | .importTexts => importTexts placement i.format texts
      | .vectors => vectors placement i.format (joinLines texts)
      | .check => check placement i.format texts
      | .scene => scene placement i.width i.height texts

/-- Runs a command line. -/
def run (around : Surroundings) (words : List String) : Outcome :=
  match Invocation.ofWords? words with
  | none => ⟨2, "", none⟩
  | some i =>
    match answer around i with
    | .ok output => ⟨0, output, none⟩
    | .error e => ⟨e.status, "", e.diagnostic⟩

end Draftboard.Command
