import Draftboard.Picture.Reader

/-!
# Draftboard.Proofs.Picture.Unplaced

Pictures before they are placed.

* What a statement draws can be read without a placement: a `Figure` in the coordinates that it writes,
  and a style. The readers here put nothing in place; what the grammar of a statement says is said about
  them.
* A reader under a placement gives the placed figure, or the same fault (`Placement.readStatement_eq`). A
  path carries its first vertex along for the word `cycle`; it is the first written vertex in its place
  (`Placement.readVertices_eq`). So reading a whole picture is reading it unplaced, and placing it then
  (`read_eq`), and likewise for lists of vectors (`readVectors_eq`).
-/

namespace Draftboard.Picture

open Text

/-! ### Figures -/

/-- What a statement draws, in the coordinates it writes. -/
inductive Figure
  | line (start stop : Point Float)
  | path (vertices : List (Point Float))
  | circle (center : Point Float) (radius : Float)
  | label (anchor : Point Float) (text : List Char)

/-- A figure with a style. -/
structure Statement where
  figure : Figure
  style : Style

/-- The geometry of a figure under a placement. Of a circle the centre is placed and the radius
is scaled. -/
def Figure.place (placement : Placement) : Figure → Geometry Float
  | line start stop => .line (placement.apply start) (placement.apply stop)
  | path vertices => .polyline (vertices.map placement.apply)
  | circle center radius => .circleOf (placement.apply center) (radius * placement.scale)
  | label anchor text => .label (placement.apply anchor) (String.ofList text)

def Statement.place (placement : Placement) (s : Statement) : Shape Float :=
  { geometry := s.figure.place placement, style := s.style }

/-! ### Reading figures -/

/-- A label at the point that it writes. -/
def readLabel (body : List Char) (color : Color) : Except ReadError Statement :=
  let rest := match cutAt nodeMarker body with
    | some (_, rest) => rest
    | none => body
  match takeVector rest with
  | .error e => .error e
  | .ok (anchor, rest) =>
    match braced? rest with
    | some text => .ok ⟨.label anchor text, { color }⟩
    | none => .error (.noMatch (String.ofList body))

/-- A circle with the centre and the radius that it writes. -/
def readCircle (body : List Char) (style : Style) : Except ReadError Statement :=
  match cutAt circleMarker body with
  | none => .error (.noMatch (String.ofList body))
  | some (left, right) =>
    match takeVector left with
    | .error e => .error e
    | .ok (center, _) =>
      match readRadius right with
      | .error e => .error e
      | .ok radius =>
        .ok ⟨.circle center radius,
          { style with frontArrow := false, backArrow := false, thickness := default }⟩

/-- The vertices that a path writes. The word `cycle` stands for the first one. -/
def readVertices (first : Option (Point Float)) :
    List (List Char) → Except ReadError (List (Point Float))
  | [] => .ok []
  | piece :: rest =>
    let vertex :=
      if sameIgnoringCase (trim piece) "cycle".toList then
        match first with
        | some p => .ok p
        | none => badVector (trim piece)
      else readVector piece
    match vertex with
    | .error e => .error e
    | .ok p =>
      match readVertices (some (first.getD p)) rest with
      | .error e => .error e
      | .ok ps => .ok (p :: ps)

/-- A line or a path through the vertices that it writes. -/
def readPath (statement body : List Char) (style : Style) : Except ReadError Statement :=
  let pieces := pathPieces body
  if pieces.length < 2 then .error (.noMatch (String.ofList statement))
  else match readVertices none pieces with
    | .error e => .error e
    | .ok [start, stop] => .ok ⟨.line start stop, { style with filled := false }⟩
    | .ok vertices => .ok ⟨.path vertices, style⟩

/-- A statement without blanks around it, unplaced. -/
def Statement.read (statement : List Char) : Except ReadError Statement :=
  let (fills, rest) := takeCommand statement
  match takeModifiers rest with
  | .error e => .error e
  | .ok (style, body) =>
    if occursIn nodeMarker body then readLabel body style.color
    else if occursIn circleMarker body then readCircle body { style with filled := fills }
    else if occursIn arcMarker body then .error (.unsupported (String.ofList statement))
    else readPath statement body { style with filled := fills }

/-- The statements of a picture, unplaced. -/
def readStatements (text : List Char) : Except ReadError (List Statement) :=
  readEach Statement.read (statementTexts text)

/-! ### Placing what is read -/

namespace Placement

variable (placement : Placement)

theorem readLabel_eq (body : List Char) (color : Color) :
    placement.readLabel body color =
      (Picture.readLabel body color).map (Statement.place placement) := by
  have hrest : ∀ rest : List Char,
      (match placement.takePoint rest with
        | .error e => .error e
        | .ok (anchor, rest) =>
          match braced? rest with
          | some text =>
            .ok { geometry := .label anchor (String.ofList text), style := { color } }
          | none => .error (.noMatch (String.ofList body)) : Except ReadError (Shape Float)) =
        (match takeVector rest with
          | .error e => .error e
          | .ok (anchor, rest) =>
            match braced? rest with
            | some text => .ok ⟨.label anchor text, { color }⟩
            | none => .error (.noMatch (String.ofList body)) : Except ReadError Statement).map
          (Statement.place placement) := by
    intro rest
    rw [takePoint]
    cases takeVector rest with
    | error e => rfl
    | ok taken =>
      dsimp only
      cases braced? taken.2 <;> rfl
  rw [readLabel, Picture.readLabel]
  cases cutAt nodeMarker body <;> exact hrest _

theorem readCircle_eq (body : List Char) (style : Style) :
    placement.readCircle body style =
      (Picture.readCircle body style).map (Statement.place placement) := by
  rw [readCircle, Picture.readCircle]
  cases cutAt circleMarker body with
  | none => rfl
  | some sides =>
    obtain ⟨left, right⟩ := sides
    dsimp only
    rw [takePoint]
    cases takeVector left with
    | error e => rfl
    | ok taken => cases readRadius right <;> rfl

/-- The first vertex of a path is carried along in its place. -/
theorem readVertices_eq (first : Option (Point Float)) (pieces : List (List Char)) :
    placement.readVertices (first.map placement.apply) pieces =
      (Picture.readVertices first pieces).map (List.map placement.apply) := by
  induction pieces generalizing first with
  | nil => rfl
  | cons piece rest ih =>
    have hrest : ∀ p, placement.readVertices (some ((first.map placement.apply).getD (placement.apply p)))
        rest = (Picture.readVertices (some (first.getD p)) rest).map (List.map placement.apply) := by
      intro p
      rw [← ih]
      cases first <;> rfl
    rw [readVertices.eq_def, Picture.readVertices.eq_def]
    dsimp only
    by_cases hcycle : sameIgnoringCase (trim piece) "cycle".toList = true
    · -- The vertex that is repeated lies in its place already.
      rw [if_pos hcycle, if_pos hcycle]
      cases first with
      | none => rfl
      | some q =>
        have hq := hrest q
        simp only [Option.map_some, Option.getD_some] at hq ⊢
        rw [hq]
        cases Picture.readVertices (some q) rest <;> rfl
    · rw [if_neg hcycle, if_neg hcycle]
      cases readVector piece with
      | error e => rfl
      | ok p =>
        simp only [Except.map, hrest]
        cases Picture.readVertices (some (first.getD p)) rest <;> rfl

theorem readPath_eq (statement body : List Char) (style : Style) :
    placement.readPath statement body style =
      (Picture.readPath statement body style).map (Statement.place placement) := by
  rw [readPath, Picture.readPath]
  split
  · rfl
  · have hvertices := placement.readVertices_eq none (pathPieces body)
    rw [Option.map_none] at hvertices
    rw [hvertices]
    cases Picture.readVertices none (pathPieces body) with
    | error e => rfl
    | ok vertices =>
      match vertices with
      | [] | [_] | [_, _] | _ :: _ :: _ :: _ => rfl

/-- Under a placement a statement gives its figure in its place, or the same fault. -/
theorem readStatement_eq (statement : List Char) :
    placement.readStatement statement =
      (Statement.read statement).map (Statement.place placement) := by
  rw [readStatement, Statement.read]
  dsimp only
  cases takeModifiers (takeCommand statement).2 with
  | error e => rfl
  | ok taken =>
    obtain ⟨style, body⟩ := taken
    dsimp only
    split
    · exact placement.readLabel_eq body style.color
    · split
      · exact placement.readCircle_eq body _
      · split
        · rfl
        · exact placement.readPath_eq statement body _

end Placement

theorem readEach_comp_map {β γ : Type} (reader : List Char → Except ReadError β) (f : β → γ)
    (texts : List (List Char)) :
    readEach (fun t => (reader t).map f) texts = (readEach reader texts).map (List.map f) := by
  induction texts with
  | nil => rfl
  | cons t rest ih =>
    rw [readEach, readEach, ih]
    cases reader t with
    | error e => rfl
    | ok b => cases readEach reader rest <;> rfl

/-- A picture is read unplaced, and then placed. -/
theorem read_eq (placement : Placement) (text : List Char) :
    read placement text = (readStatements text).map fun all => all.map (Statement.place placement) := by
  rw [read, funext placement.readStatement_eq, readEach_comp_map, readStatements]

theorem readVectors_eq (placement : Placement) (text : List Char) :
    readVectors placement text =
      match readEach readPair (vectorLines text) with
      | .error e => .error e
      | .ok [] => .error .emptyVectorList
      | .ok vertices =>
        .ok { geometry := .polyline (vertices.map placement.apply), style := { filled := true } } := by
  rw [readVectors, readEach_comp_map]
  cases readEach readPair (vectorLines text) with
  | error e => rfl
  | ok vertices => cases vertices <;> rfl

end Draftboard.Picture
