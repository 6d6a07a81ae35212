import Draftboard.Text.Blank

/-!
# Draftboard.Text.Line

The lines of a text. A line ends at a line feed, which takes one carriage return before it
along; a carriage return elsewhere is a character like any other. A line feed at the end of
the text starts no further line.
-/

namespace Draftboard.Text

/-- The lines of a text, without their ends. -/
def lines : List Char → List (List Char)
  | [] => []
  | '\r' :: '\n' :: r => [] :: lines r
  | '\n' :: r => [] :: lines r
  | c :: r => consHead c (lines r)

/-- The texts with `separator` between each two of them. -/
def joinWith (separator : List Char) : List (List Char) → List Char
  | [] => []
  | [s] => s
  | s :: rest => s ++ separator ++ joinWith separator rest

example : lines "a\r\n\nb\rc\n".toList = ["a".toList, [], "b\rc".toList] := by decide

example : lines "a\r".toList = ["a\r".toList] ∧ lines [] = [] ∧ lines ['\n'] = [[]] := by decide

end Draftboard.Text
