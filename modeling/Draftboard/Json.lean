import Draftboard.Number.Format
import Draftboard.Text.Line
import Draftboard.Text.Quoted

/-!
# Draftboard.Json

JSON values and their printed form, with one entry to a line.

A number is held as its text: which digits it is written with is decided where it is made.
The fields of an object are printed in the order in which they stand.
-/

namespace Draftboard

/-- A JSON value. -/
inductive Json where
  | null
  | bool (b : Bool)
  | number (text : List Char)
  | string (s : String)
  | array (items : List Json)
  | object (fields : List (String × Json))

namespace Json

/-! ### Making values -/

def ofNat (n : Nat) : Json := .number (Nat.toDigits 10 n)

/-- A 64-bit number; what is not a finite number is null. -/
def ofFloat (x : Float) : Json := if x.isFinite then .number (Format.shortest x) else .null

/-- A 32-bit number; what is not a finite number is null. -/
def ofFloat32 (x : Float32) : Json := if x.isFinite then .number (Format.shortest32 x) else .null

def ofOption {β : Type} (f : β → Json) : Option β → Json
  | some b => f b
  | none => .null

/-! ### Printing -/

/-- A line break and the indentation of the given depth, two spaces for each level. -/
def newline (depth : Nat) : List Char := '\n' :: List.replicate (2 * depth) ' '

/-- A text as a JSON string. -/
def quote (s : String) : List Char := Text.quotedBy Text.escapeInJson s.toList

/-- The entries of an array or object between brackets; no entries take no line. -/
def enclosed (opening closing : Char) (depth : Nat) : List (List Char) → List Char
  | [] => [opening, closing]
  | entries =>
    opening :: newline (depth + 1) ++ Text.joinWith (',' :: newline (depth + 1)) entries ++
      newline depth ++ [closing]

mutual

/-- A value as text, its entries one level deeper than `depth`. -/
def pretty (depth : Nat) : Json → List Char
  | .null => "null".toList
  | .bool true => "true".toList
  | .bool false => "false".toList
  | .number text => text
  | .string s => quote s
  | .array items => enclosed '[' ']' depth (prettyItems (depth + 1) items)
  | .object fields => enclosed '{' '}' depth (prettyFields (depth + 1) fields)

def prettyItems (depth : Nat) : List Json → List (List Char)
  | [] => []
  | item :: rest => pretty depth item :: prettyItems depth rest

def prettyFields (depth : Nat) : List (String × Json) → List (List Char)
  | [] => []
  | (name, value) :: rest => (quote name ++ ": ".toList ++ pretty depth value) :: prettyFields depth rest

end

/-- A value as the text of a file: printed, with its last line ended. -/
def document (j : Json) : String := String.ofList (pretty 0 j ++ ['\n'])

end Json

end Draftboard
