import Draftboard.Command.Basic

/-!
# Draftboard.Command.Line

What the words of a command line ask for.

* The words before the command hold options only, those after it options and files. Some
  options are known on both sides, and one that stands on both sides counts as it stands after
  the command; on one side each option stands once at most.
* An option with a value takes it after an equals sign or as the next word. A word that starts
  with a hyphen is no value, except for a single hyphen and for a negative number after an
  option that takes those.
* After two hyphens every word is a file.
* Everything else is a fault of usage, which has no further cause here.
-/

namespace Draftboard.Command

/-! ### Commands and options -/

/-- The commands by name. -/
inductive Name
  | importTexts
  | vectors
  | check
  | scene
deriving DecidableEq, Repr

/-- The command that a word names. -/
def Name.ofWord? (word : List Char) : Option Name :=
  if word = "import".toList then some .importTexts
  else if word = "vectors".toList then some .vectors
  else if word = "check".toList then some .check
  else if word = "scene".toList then some .scene
  else none

/-- The options. -/
inductive Flag
  | scale
  | rotation
  | verbose
  | json
  | picture
  | width
  | height
deriving DecidableEq, Repr

namespace Flag

def all : List Flag := [scale, rotation, verbose, json, picture, width, height]

/-- The option as written after two hyphens. -/
def word : Flag → String
  | scale => "scale"
  | rotation => "rotation"
  | verbose => "verbose"
  | json => "json"
  | picture => "picture"
  | width => "width"
  | height => "height"

/-- Whether the option is known before a command, or after the given one. -/
def isKnown (flag : Flag) : Option Name → Bool
  | none => flag = scale ∨ flag = rotation ∨ flag = verbose
  | some .scene => true
  | some _ => flag ≠ width ∧ flag ≠ height

/-- Whether a text is a value of the option; none is for an option without a value. -/
def accepts (text : String) : Flag → Bool
  | scale => (Configuration.readScale .scaleFlag text).toOption.isSome
  | rotation => (Configuration.readFinite .rotationFlag text).toOption.isSome
  | width | height => (Literal.read? text.toList).isSome
  | verbose | json | picture => false

def takesValue : Flag → Bool
  | verbose | json | picture => false
  | _ => true

end Flag

/-! ### Words -/

/-- Digits with at most one point after the first of them, and at most one exponent mark with
nothing but digits after it. -/
def isPlainNumber (s : List Char) : Bool :=
  let whole := s.takeWhile Char.isDigit
  let rest := s.dropWhile Char.isDigit
  let rest := match rest with
    | '.' :: r => r.dropWhile Char.isDigit
    | r => r
  match rest with
  | [] => whole ≠ []
  | c :: digits => whole ≠ [] && (c == 'e' || c == 'E') && digits ≠ [] && digits.all Char.isDigit

/-- Whether a word of its own can be the value of an option. -/
def isValueWord (flag : Flag) : List Char → Bool
  | ['-'] => true
  | '-' :: r => flag = .rotation && isPlainNumber r
  | _ => true

/-- The options of one side of the command, with the text of each value, and the words that are
no options. -/
structure Words where
  options : List (Flag × String) := []
  rest : List String := []

def Words.addOption (w : Words) (flag : Flag) (value : String) : Words :=
  { w with options := (flag, value) :: w.options }

def Words.addRest (w : Words) (word : String) : Words := { w with rest := word :: w.rest }

/-- A word that starts with two hyphens: the option and the text after an equals sign. -/
def longOption? (known : Flag → Bool) (word : List Char) : Option (Flag × Option String) :=
  let (name, value) := match Text.cutAt ['='] word with
    | some (name, value) => (name, some (String.ofList value))
    | none => (word, none)
  (Flag.all.find? fun flag => known flag && flag.word.toList = name).map fun flag => (flag, value)

/-- Collects the words of one side. Before the command (`name` is none) the first word that is no
option ends it; that word and all after it are the rest. -/
def collect (name : Option Name) : List String → Option Words
  | [] => some {}
  | word :: more =>
    match word.toList with
    | ['-', '-'] => if name.isSome then some { rest := more } else none
    | '-' :: '-' :: long =>
      match longOption? (·.isKnown name) long with
      | none => none
      | some (flag, attached) =>
        match flag.takesValue, attached with
        | true, some value => (collect name more).map (·.addOption flag value)
        | false, none => (collect name more).map (·.addOption flag "")
        | false, some _ => none
        | true, none =>
          match more with
          | [] => none
          | value :: more =>
            if isValueWord flag value.toList then (collect name more).map (·.addOption flag value)
            else none
    | '-' :: c :: short =>
      if (c :: short).all (· = 'v') then
        (collect name more).map fun w =>
          (c :: short).foldl (fun w _ => w.addOption .verbose "") w
      else none
    | _ =>
      if name.isSome then (collect name more).map (·.addRest word) else some { rest := word :: more }

/-- Whether each option stands once, with a value that it takes. -/
def Words.isValid (w : Words) : Bool :=
  (w.options.map (·.1)).Nodup &&
    w.options.all fun (flag, value) => !flag.takesValue || flag.accepts value

/-- The text of an option's value. -/
def Words.value? (w : Words) (flag : Flag) : Option String :=
  (w.options.find? (·.1 = flag)).map (·.2)

/-! ### Invocations -/

/-- What a command line asks for. -/
structure Invocation where
  name : Name
  /-- The scale and the rotation that flags set. -/
  scale : Option Float
  rotation : Option Float
  format : OutputFormat
  width : Float
  height : Float
  /-- The files to read; a single hyphen is the standard input. -/
  files : List String

/-- The value of an option that stands on either side; after the command it counts first. -/
def settingOf (before after : Words) (flag : Flag) (reader : String → Option Float) : Option Float :=
  ((after.value? flag).or (before.value? flag)).bind reader

/-- What the words of a command line ask for, or nothing if they are no usage of it. -/
def Invocation.ofWords? (words : List String) : Option Invocation :=
  match collect none words with
  | none | some ⟨_, []⟩ => none
  | some ⟨options, command :: more⟩ =>
    match Name.ofWord? command.toList with
    | none => none
    | some name =>
      match collect (some name) more with
      | none => none
      | some after =>
        let before : Words := { options }
        let has flag := (after.value? flag).isSome
        if !before.isValid || !after.isValid || (has .json && has .picture) then none
        else some
          { name
            scale := settingOf before after .scale fun t => (Configuration.readScale .scaleFlag t).toOption
            rotation := settingOf before after .rotation fun t =>
              (Configuration.readFinite .rotationFlag t).toOption
            format := if has .json then .json else if has .picture then .picture else .text
            width := (settingOf {} after .width fun t => Literal.read? t.toList).getD (Scalar.ofNat 1200)
            height := (settingOf {} after .height fun t => Literal.read? t.toList).getD (Scalar.ofNat 800)
            files := if after.rest = [] then ["-"] else after.rest }

end Draftboard.Command
