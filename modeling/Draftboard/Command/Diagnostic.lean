import Draftboard.Command.Basic

/-!
# Draftboard.Command.Diagnostic

The line with which a failed run ends: the cause with its parts, named and quoted.
-/

namespace Draftboard.Command

open Text (quoted)

/-- A cause that carries one text. -/
def tagged (tag text : String) : String := tag ++ "(" ++ quoted text ++ ")"

def readDiagnostic : ReadError → String
  | .malformedVector text => tagged "MalformedVector" text
  | .malformedNumber text => tagged "MalformedNumber" text
  | .unknownUnit text => tagged "UnknownUnit" text
  | .unsupported text => tagged "Unsupported" text
  | .noMatch text => tagged "NoMatch" text
  | .emptyVectorList => "EmptyVectorList"

/-- A cause that names a setting and its value. -/
def settingDiagnostic (tag : String) (source : SettingSource) (value : String) : String :=
  tag ++ " \x7b var: " ++ quoted source.name ++ ", value: " ++ quoted value ++ " \x7d"

def configurationDiagnostic : ConfigurationError → String
  | .notANumber source value => settingDiagnostic "NotANumber" source value
  | .outOfRange source value => settingDiagnostic "OutOfRange" source value

/-- A cause that the system reports, with its number. -/
def systemDiagnostic (code : Nat) (kind text : String) : String :=
  "Os \x7b code: " ++ toString code ++ ", kind: " ++ kind ++ ", message: " ++ quoted text ++ " \x7d"

def fileDiagnostic : FileError → String
  | .notFound => systemDiagnostic 2 "NotFound" "No such file or directory"
  | .permissionDenied => systemDiagnostic 13 "PermissionDenied" "Permission denied"
  | .isDirectory => systemDiagnostic 21 "IsADirectory" "Is a directory"
  | .notADirectory => systemDiagnostic 20 "NotADirectory" "Not a directory"
  | .nameTooLong => systemDiagnostic 36 "InvalidFilename" "File name too long"
  | .invalidText =>
    "Error \x7b kind: InvalidData, message: " ++ quoted "stream did not contain valid UTF-8" ++ " \x7d"

/-- The last line of a run that fails. A run that is broken off has none. -/
def Error.diagnostic : Error → Option String
  | .configuration e => some ("Error: Config(" ++ configurationDiagnostic e ++ ")")
  | .read e => some ("Error: Parse(" ++ readDiagnostic e ++ ")")
  | .file e => some ("Error: Io(" ++ fileDiagnostic e ++ ")")
  | .noInput => some "Error: NoInput"
  | .crash _ => none

/-- The status that a failed run leaves. -/
def Error.status : Error → Nat
  | .crash _ => 101
  | _ => 1

example : Error.diagnostic (.read (.noMatch "\\draw")) = some "Error: Parse(NoMatch(\"\\\\draw\"))" := by
  decide +kernel

end Draftboard.Command
