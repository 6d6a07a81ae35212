import Draftboard.Command.Run

/-!
# Draftboard.Main

The command line program. It gathers the files, the standard input and the environment that a
run may look at, and prints what the run leaves behind.
-/

namespace Draftboard.Main

open Command (FileError)

/-- The system's number of a fault, which some calls report with its sign changed. -/
def systemNumber (code : UInt32) : UInt32 := min code (0 - code)

/-- The cause of a failed read. -/
def causeOf : IO.Error → FileError
  | .noFileOrDirectory .. | .noSuchThing .. => .notFound
  | .permissionDenied .. => .permissionDenied
  | .inappropriateType _ code _ => if systemNumber code = 20 then .notADirectory else .isDirectory
  | .invalidArgument _ code _ => if systemNumber code = 36 then .nameTooLong else .invalidText
  | _ => .invalidText

/-- The text that a reader yields, or the cause for which it fails. -/
def attempt (reader : IO String) : IO (Except FileError String) := do
  try
    let text ← reader
    return .ok text
  catch e => return .error (causeOf e)

/-- The standard input to its end. -/
def readInput : IO String := do
  let stdin ← IO.getStdin
  stdin.readToEnd

/-- The surroundings of a command line: only what it names is read. -/
def gather (words : List String) : IO Command.Surroundings := do
  let paths := ((Command.Invocation.ofWords? words).map (·.files)).getD []
  let input ← if paths.any Command.isInput then attempt readInput else pure (.ok "")
  let files ← (paths.filter (!Command.isInput ·)).mapM fun (path : String) => do
    return (path, ← attempt (IO.FS.readFile path))
  return {
    input
    file := fun path => (files.lookup path).getD (.error .notFound)
    scale := ← IO.getEnv SettingSource.scaleVariable.name
    rotation := ← IO.getEnv SettingSource.rotationVariable.name }

end Draftboard.Main

/-- Runs the command line that the program is started with. -/
def main (words : List String) : IO UInt32 := do
  let outcome := Draftboard.Command.run (← Draftboard.Main.gather words) words
  IO.print outcome.output
  match outcome.failure with
  | some line => IO.eprintln line
  | none => if outcome.status = 2 then IO.eprintln "usage: import | vectors | check | scene [options] [files]"
  return outcome.status.toUInt32
