import Draftboard.Text.Line

/-!
# Draftboard.Picture.Scan

The characters of a picture text that count, and the pieces they cut it into.

* `visible` drops comments and the lines that open or close a picture environment.
* `BraceScan` follows the nesting of braces. A backslash takes the meaning from the character
  after it, and between dollar signs inside braces nothing but a dollar sign and a backslash has
  one.
* `statements` splits at the semicolons outside of all braces, and `braced?` takes out the text
  of the first pair of braces. Both run the same scan.
-/

namespace Draftboard.Picture

open Text

/-! ### Comments and environment lines -/

/-- The part of a line before its first percent sign that no backslash precedes; `escaped` says
whether a backslash stands before the line. -/
def beforeComment (escaped : Bool) : List Char → List Char
  | [] => []
  | c :: r =>
    if c = '%' ∧ escaped = false then [] else c :: beforeComment (c == '\\' && !escaped) r

def opening : List Char := "\\begin\x7btikzpicture\x7d".toList

def closing : List Char := "\\end\x7btikzpicture\x7d".toList

/-- Whether a line opens or closes a picture environment. -/
def isEnvironmentLine (line : List Char) : Bool :=
  opening.isPrefixOf (trimStart line) || closing.isPrefixOf (trimStart line)

/-- The lines of a text that count, without their comments. -/
def visibleLines (text : List Char) : List (List Char) :=
  ((lines text).map (beforeComment false)).filter fun line => !isEnvironmentLine line

/-- The text without comments and environment lines. -/
def visible (text : List Char) : List Char := joinWith ['\n'] (visibleLines text)

/-! ### Braces -/

/-- Where in the nesting of braces a scan is. -/
structure BraceScan where
  depth : Nat := 0
  /-- Between dollar signs. -/
  inMath : Bool := false
  /-- Just after a backslash that has a meaning. -/
  escaped : Bool := false
deriving DecidableEq, Repr

namespace BraceScan

/-- The scan after one more character. -/
def step (s : BraceScan) (c : Char) : BraceScan :=
  let next := { s with escaped := c == '\\' && !s.escaped }
  if s.escaped then next
  else if c = '$' ∧ 0 < s.depth then { next with inMath := !s.inMath }
  else if s.inMath then next
  else if c = '{' then { next with depth := s.depth + 1 }
  else if c = '}' then { next with depth := s.depth - 1 }
  else next

/-- Whether a character closes the outermost brace. -/
def closes (s : BraceScan) (c : Char) : Bool := s.depth == 1 && (s.step c).depth == 0

/-- The scan after a text. -/
def run (s : BraceScan) (text : List Char) : BraceScan := text.foldl step s

@[simp] theorem run_nil (s : BraceScan) : s.run [] = s := rfl

@[simp] theorem run_cons (s : BraceScan) (c : Char) (r : List Char) :
    s.run (c :: r) = (s.step c).run r := rfl

theorem run_append (s : BraceScan) (t u : List Char) : s.run (t ++ u) = (s.run t).run u :=
  List.foldl_append

end BraceScan

/-- The pieces of a text between the semicolons outside of all braces. -/
def statements (scan : BraceScan) : List Char → List (List Char)
  | [] => [[]]
  | c :: r =>
    let scan := scan.step c
    if c = ';' ∧ scan.depth = 0 then [] :: statements scan r
    else consHead c (statements scan r)

/-- The text up to the brace that closes the outermost one. -/
def upToClosing? (scan : BraceScan) : List Char → Option (List Char)
  | [] => none
  | c :: r => if scan.closes c then some [] else (upToClosing? (scan.step c) r).map (c :: ·)

/-- The text inside the first pair of braces. -/
def braced? (text : List Char) : Option (List Char) :=
  (cutAt ['{'] text).bind fun (_, rest) => upToClosing? { depth := 1 } rest

example : statements {} "a\x7b;\\\x7d;\x7d;b".toList = ["a\x7b;\\\x7d;\x7d".toList, ['b']] := by decide

example : braced? "x \x7ba $\x7d$ \x7bb\x7d\x7d c".toList = some "a $\x7d$ \x7bb\x7d".toList := by decide

end Draftboard.Picture
