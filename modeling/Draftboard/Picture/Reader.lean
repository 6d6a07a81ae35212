import Draftboard.Picture.Statement

/-!
# Draftboard.Picture.Reader

Reading a whole text: a picture, or a list of vectors.

A picture is read if every statement of it is; the first statement at fault decides the error
otherwise. A list of vectors makes one filled polygon, which is not closed.
-/

namespace Draftboard.Picture

open Text

/-- Applies a reader to each text in order, up to the first fault. -/
def readEach {β : Type} (reader : List Char → Except ReadError β) :
    List (List Char) → Except ReadError (List β)
  | [] => .ok []
  | s :: rest =>
    match reader s with
    | .error e => .error e
    | .ok b =>
      match readEach reader rest with
      | .error e => .error e
      | .ok bs => .ok (b :: bs)

/-- The statements of a text without the blanks around them; empty ones are left out. -/
def statementTexts (text : List Char) : List (List Char) :=
  ((statements {} (visible text)).map trim).filter (· ≠ [])

/-- The shapes of a picture. -/
def read (placement : Placement) (text : List Char) : Except ReadError (List (Shape Float)) :=
  readEach placement.readStatement (statementTexts text)

/-- The lines of a vector list that are not blank. -/
def vectorLines (text : List Char) : List (List Char) := ((lines text).map trim).filter (· ≠ [])

/-- The filled polygon of a list of vectors. -/
def readVectors (placement : Placement) (text : List Char) : Except ReadError (Shape Float) :=
  match readEach (fun line => (readPair line).map placement.apply) (vectorLines text) with
  | .error e => .error e
  | .ok [] => .error .emptyVectorList
  | .ok vertices => .ok { geometry := .polyline vertices, style := { filled := true } }

end Draftboard.Picture
