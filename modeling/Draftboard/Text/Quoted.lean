import Draftboard.Text.Unprintable

/-!
# Draftboard.Text.Quoted

Texts in double quotes, as they stand in messages and in JSON.

The two forms share the quote and the backslash, which a backslash precedes, and the short
names of line feed, carriage return and tab. They differ in what they do with the other
characters that should not be shown.
-/

namespace Draftboard.Text

/-- The hexadecimal digits of a number, with zeros in front up to a width. -/
def hexadecimal (width n : Nat) : List Char :=
  let digits := Nat.toDigits 16 n
  List.replicate (width - digits.length) '0' ++ digits

/-- A character with a short name, in either form. -/
def escapeShort? : Char → Option (List Char)
  | '"' => some ['\\', '"']
  | '\\' => some ['\\', '\\']
  | '\n' => some ['\\', 'n']
  | '\r' => some ['\\', 'r']
  | '\t' => some ['\\', 't']
  | _ => none

/-- A character of a message: one that cannot be shown is written as its number in braces. -/
def escapeInMessage (c : Char) : List Char :=
  match escapeShort? c with
  | some s => s
  | none =>
    if c = '\x00' then ['\\', '0']
    else if isUnprintable c then '\\' :: 'u' :: '{' :: hexadecimal 1 c.toNat ++ ['}']
    else [c]

/-- A character of a JSON string: only controls are escaped, with a short name or four digits. -/
def escapeInJson (c : Char) : List Char :=
  match escapeShort? c with
  | some s => s
  | none =>
    if c = '\x08' then ['\\', 'b']
    else if c = '\x0c' then ['\\', 'f']
    else if c.toNat < 0x20 then '\\' :: 'u' :: hexadecimal 4 c.toNat
    else [c]

/-- A text in quotes, each of its characters written by `escape`. -/
def quotedBy (escape : Char → List Char) (s : List Char) : List Char :=
  '"' :: s.flatMap escape ++ ['"']

/-- A text as quoted in a message. -/
def quoted (s : String) : String := String.ofList (quotedBy escapeInMessage s.toList)

end Draftboard.Text
