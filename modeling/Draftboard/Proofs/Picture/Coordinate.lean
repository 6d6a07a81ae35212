import Draftboard.Proofs.Picture.Literal
import Draftboard.Proofs.Picture.Reread
import Draftboard.Proofs.Picture.Settled

/-!
# Draftboard.Proofs.Picture.Coordinate

The coordinates of the points that are read.

* A vector is read from the two literals that it is written with, or it is malformed
  (`readVector_eq_ok_iff`, `exists_of_readVector`); so is a line of a vector list.
* The points of a statement are those of its vectors, in order; `cycle` stands for the first one
  (`readVertices_eq`, `Statement.readsFrom`). A vector that does not spell a point makes the
  statement malformed (`ReadsFrom.malformed`).
* Where nothing is moved a point is finite if and only if both of its literals spell decimals below the
  overflow (`points_finite_iff`). A text may spell others, and they are read (`infinite_points`).
-/

namespace Draftboard

open Text

namespace Picture

/-! ### Vectors -/

/-- The literals of a vector in parentheses. -/
def coordinates? (text : List Char) : Option (List Char × List Char) :=
  (inside? '(' ')' (trim text)).bind fun inner =>
    (cutAt [','] inner).map fun parts => (trim parts.1, trim parts.2)

/-- The two texts of a list that has two. -/
def pair? : List (List Char) → Option (List Char × List Char)
  | [x, y] => some (x, y)
  | _ => none

/-- The literals of a line of a vector list. -/
def lineCoordinates? (line : List Char) : Option (List Char × List Char) :=
  let bare := line.filter fun c => c != '(' && c != ')'
  pair? (if bare.contains ',' then (splitWhere (· == ',') bare).map trim else words bare)

/-- Two literals spell the coordinates of a point. -/
def Spells (literals : List Char × List Char) (p : Point Float) : Prop :=
  Literal.read? literals.1 = some p.x ∧ Literal.read? literals.2 = some p.y

theorem Spells.isFinite_iff {literals : List Char × List Char} {p : Point Float}
    (h : Spells literals p) :
    p.IsFinite ↔ Literal.IsFinite literals.1 ∧ Literal.IsFinite literals.2 :=
  and_congr (Literal.isFinite_iff h.1) (Literal.isFinite_iff h.2)

theorem pointOf?_eq_some_iff {x y : List Char} {p : Point Float} :
    pointOf? x y = some p ↔ Spells (trim x, trim y) p := by
  unfold pointOf? Spells
  split
  · rename_i hx hy
    rw [hx, hy, Option.some.injEq, Option.some.injEq, Option.some.injEq, Point.ext_iff]
  · rename_i hnone
    exact iff_of_false nofun fun h => hnone _ _ h.1 h.2

theorem readVector_eq_ok_iff {text : List Char} {p : Point Float} :
    readVector text = .ok p ↔ ∃ literals, coordinates? text = some literals ∧ Spells literals p := by
  have hvector : readVector text = .ok p ↔ vector? (trim text) = some p := by
    unfold readVector
    split
    · rename_i hsome
      rw [hsome, Except.ok.injEq, Option.some.injEq]
    · rename_i hnone
      rw [hnone]
      exact iff_of_false nofun nofun
  rw [hvector]
  simp only [vector?, coordinates?, Option.bind_eq_some_iff, Option.map_eq_some_iff,
    pointOf?_eq_some_iff]
  constructor
  · rintro ⟨inner, hinner, parts, hparts, hspells⟩
    exact ⟨_, ⟨inner, hinner, parts, hparts, rfl⟩, hspells⟩
  · rintro ⟨_, ⟨inner, hinner, parts, hparts, rfl⟩, hspells⟩
    exact ⟨inner, hinner, parts, hparts, hspells⟩

/-- What is no vector is malformed. -/
theorem exists_of_readVector {text : List Char} {e : ReadError} (h : readVector text = .error e) :
    ∃ v, e = .malformedVector v := by
  unfold readVector at h
  split at h
  · cases h
  · exact ⟨_, (Except.error.inj h).symm⟩

theorem pair?_eq_some {parts : List (List Char)} {literals : List Char × List Char}
    (h : pair? parts = some literals) : parts = [literals.1, literals.2] := by
  unfold pair? at h
  split at h
  · obtain rfl := Option.some.inj h
    rfl
  · cases h

theorem readPair_eq_ok_iff {line : List Char} {p : Point Float} :
    readPair line = .ok p ↔ ∃ literals, lineCoordinates? line = some literals ∧ Spells literals p := by
  unfold readPair lineCoordinates?
  dsimp only
  split
  · rename_i x y hparts
    have hpair : pair? [x, y] = some (x, y) := rfl
    rw [hparts, hpair]
    unfold Spells
    split
    · rename_i hx hy
      simp [hx, hy, Point.ext_iff]
    · rename_i hnone
      refine iff_of_false nofun ?_
      rintro ⟨_, hliterals, hspells⟩
      obtain rfl := Option.some.inj hliterals
      exact hnone _ _ hspells.1 hspells.2
  · rename_i hnone
    refine iff_of_false nofun ?_
    rintro ⟨literals, hliterals, -⟩
    exact hnone _ _ (pair?_eq_some hliterals)

theorem exists_of_readPair {line : List Char} {e : ReadError} (h : readPair line = .error e) :
    e = .malformedVector (String.ofList line) := by
  unfold readPair at h
  dsimp only at h
  split at h
  · split at h
    · cases h
    · exact (Except.error.inj h).symm
  · exact (Except.error.inj h).symm

/-- Texts are read one by one. -/
theorem readEach_eq_ok_iff {β : Type} {reader : List Char → Except ReadError β}
    {ts : List (List Char)} {bs : List β} :
    readEach reader ts = .ok bs ↔ List.Forall₂ (fun t b => reader t = .ok b) ts bs := by
  refine ⟨forall₂_of_readEach, fun h => ?_⟩
  induction h with
  | nil => rfl
  | cons ht _ ih => rw [readEach, ht, ih]

/-- Texts are refused exactly with the first fault: what stands before it is read, and what follows does
not matter. -/
theorem readEach_eq_error_iff {β : Type} {reader : List Char → Except ReadError β}
    {ts : List (List Char)} {e : ReadError} :
    readEach reader ts = .error e ↔ ∃ before t after, ts = before ++ t :: after ∧
      (∀ u ∈ before, ∃ b, reader u = .ok b) ∧ reader t = .error e := by
  constructor
  · intro h
    induction ts with
    | nil => cases h
    | cons t ts ih =>
      rw [readEach] at h
      split at h
      · rename_i hread
        obtain rfl := Except.error.inj h
        exact ⟨[], t, ts, rfl, List.forall_mem_nil _, hread⟩
      · rename_i hread
        split at h
        · rename_i hrest
          obtain rfl := Except.error.inj h
          obtain ⟨before, u, after, rfl, hbefore, hu⟩ := ih hrest
          exact ⟨t :: before, u, after, rfl, List.forall_mem_cons.2 ⟨⟨_, hread⟩, hbefore⟩, hu⟩
        · cases h
  · rintro ⟨before, t, after, rfl, hbefore, h⟩
    induction before with
    | nil => rw [List.nil_append, readEach, h]
    | cons u before ih =>
      obtain ⟨⟨b, hb⟩, hrest⟩ := List.forall_mem_cons.1 hbefore
      rw [List.cons_append, readEach, hb, ih hrest]

/-! ### The vectors of a statement -/

/-- The first text in parentheses, with them. -/
def parenthesised (text : List Char) : List Char :=
  ((cutAt ['('] text).bind fun opened =>
    (cutAt [')'] opened.2).map fun closed => '(' :: closed.1 ++ [')']).getD []

/-- The vector that a piece of a path stands for: the word `cycle` stands for the first one. -/
def vectorOf (first piece : List Char) : List Char :=
  if sameIgnoringCase (trim piece) "cycle".toList then first else piece

/-- The texts of the vectors of a path. -/
def pathVectors (pieces : List (List Char)) : List (List Char) :=
  pieces.map (vectorOf (pieces.headD []))

/-- What stands behind the first node marker, if there is one. -/
def afterNode (body : List Char) : List Char :=
  match cutAt nodeMarker body with
  | some (_, rest) => rest
  | none => body

/-- What stands before the first circle marker. -/
def beforeCircle (body : List Char) : List Char := ((cutAt circleMarker body).map Prod.fst).getD []

/-- The texts of the vectors of a body, in the order of the points that are read from them. -/
def bodyVectors (body : List Char) : List (List Char) :=
  if occursIn nodeMarker body then [parenthesised (afterNode body)]
  else if occursIn circleMarker body then [parenthesised (beforeCircle body)]
  else if occursIn arcMarker body ∨ (pathPieces body).length < 2 then []
  else pathVectors (pathPieces body)

/-- The texts of the vectors of a statement. -/
def vectorTexts (statement : List Char) : List (List Char) :=
  match takeModifiers (takeCommand statement).2 with
  | .ok (_, body) => bodyVectors body
  | .error _ => []

/-- The points of a figure that are written: both ends, all vertices, the centre or the anchor. -/
def Figure.points : Figure → List (Point Float)
  | line start stop => [start, stop]
  | path vertices => vertices
  | circle center _ => [center]
  | label anchor _ => [anchor]

/-- The vector that is taken is the first text in parentheses. -/
theorem readVector_of_takeVector {text rest : List Char} {p : Point Float}
    (h : takeVector text = .ok (p, rest)) : readVector (parenthesised text) = .ok p := by
  unfold takeVector at h
  split at h
  · cases h
  · rename_i hopen
    split at h
    · cases h
    · rename_i hclose
      split at h
      · rename_i hread
        obtain ⟨rfl, -⟩ := Prod.mk.inj (Except.ok.inj h)
        rw [parenthesised, hopen, Option.bind_some, hclose]
        exact hread
      · cases h

/-- Where the first text in parentheses is no vector, none is taken. -/
theorem exists_of_takeVector {text : List Char}
    (h : ∀ p, readVector (parenthesised text) ≠ .ok p) :
    ∃ v, takeVector text = .error (.malformedVector v) := by
  cases htake : takeVector text with
  | ok taken => exact absurd (readVector_of_takeVector htake) (h _)
  | error e =>
    unfold takeVector at htake
    split at htake
    · exact ⟨_, htake.symm⟩
    · split at htake
      · exact ⟨_, htake.symm⟩
      · split at htake
        · cases htake
        · rename_i hread
          obtain ⟨v, rfl⟩ := exists_of_readVector hread
          exact ⟨v, htake.symm⟩

/-- After the first vertex a path is read vector by vector. -/
theorem readVertices_some {first : List Char} {p : Point Float} (h : readVector first = .ok p)
    (pieces : List (List Char)) :
    readVertices (some p) pieces = readEach readVector (pieces.map (vectorOf first)) := by
  induction pieces with
  | nil => rfl
  | cons piece pieces ih =>
    have hvertex : (if sameIgnoringCase (trim piece) "cycle".toList then .ok p
        else readVector piece) = readVector (vectorOf first piece) := by
      unfold vectorOf
      split
      · exact h.symm
      · rfl
    rw [readVertices, List.map_cons, readEach, hvertex]
    cases readVector (vectorOf first piece) with
    | error e => rfl
    | ok q =>
      dsimp only
      rw [Option.getD_some, ih]
      cases readEach readVector (pieces.map (vectorOf first)) <;> rfl

/-- The word `cycle` is no vector. -/
theorem readVector_of_cycle {piece : List Char}
    (h : sameIgnoringCase (trim piece) "cycle".toList = true) :
    readVector piece = badVector (trim piece) := by
  have hvector : vector? (trim piece) = none := by
    cases ht : trim piece with
    | nil => rfl
    | cons c r =>
      rw [ht] at h
      have hc : c ≠ '(' := by
        rintro rfl
        exact absurd (List.cons.inj (eq_of_beq h)).1 (by decide)
      rw [vector?, inside?, if_neg fun hopen => hc hopen.1]
      rfl
  rw [readVector, hvector]

/-- A path is read vector by vector. -/
theorem readVertices_eq (pieces : List (List Char)) :
    readVertices none pieces = readEach readVector (pathVectors pieces) := by
  cases pieces with
  | nil => rfl
  | cons piece pieces =>
    have hfirst : vectorOf piece piece = piece := ite_self _
    have hvertex : (if sameIgnoringCase (trim piece) "cycle".toList then badVector (trim piece)
        else readVector piece) = readVector piece := by
      split
      · rename_i hcycle
        exact (readVector_of_cycle hcycle).symm
      · rfl
    rw [readVertices, pathVectors, List.headD_cons, List.map_cons, readEach, hfirst, hvertex]
    cases hread : readVector piece with
    | error e => rfl
    | ok p =>
      dsimp only
      rw [Option.getD_none, readVertices_some hread]
      cases readEach readVector (pieces.map (vectorOf piece)) <;> rfl

/-- The points of what is read come from the vectors, and it is malformed if one of these is no
vector. -/
structure ReadsFrom (vectors : List (List Char)) (result : Except ReadError Statement) : Prop where
  points : ∀ st, result = .ok st →
    List.Forall₂ (fun v p => readVector v = .ok p) vectors st.figure.points
  malformed : (∃ v ∈ vectors, ∀ p, readVector v ≠ .ok p) → ∃ v, result = .error (.malformedVector v)

theorem ReadsFrom.of_error (e : ReadError) : ReadsFrom [] (.error e) where
  points _ h := by cases h
  malformed := by
    rintro ⟨v, hv, -⟩
    exact absurd hv List.not_mem_nil

theorem readsFrom_readLabel (body : List Char) (c : Color) :
    ReadsFrom [parenthesised (afterNode body)] (readLabel body c) := by
  unfold readLabel
  dsimp only
  constructor
  · intro st h
    split at h
    · cases h
    · rename_i htake
      split at h
      · obtain rfl := Except.ok.inj h
        exact .cons (readVector_of_takeVector htake) .nil
      · cases h
  · rintro ⟨v, hv, hbad⟩
    obtain rfl := List.mem_singleton.1 hv
    obtain ⟨w, hw⟩ := exists_of_takeVector hbad
    split
    · rename_i htake
      exact ⟨w, congrArg _ (Except.error.inj (htake.symm.trans hw))⟩
    · rename_i htake
      cases htake.symm.trans hw

theorem readsFrom_readCircle {body : List Char} (hcircle : occursIn circleMarker body = true)
    (style : Style) :
    ReadsFrom [parenthesised (beforeCircle body)] (readCircle body style) := by
  obtain ⟨⟨left, right⟩, hcut⟩ := Option.isSome_iff_exists.1 hcircle
  unfold readCircle beforeCircle
  rw [hcut]
  dsimp only [Option.map_some, Option.getD_some]
  constructor
  · intro st h
    split at h
    · cases h
    · rename_i htake
      split at h
      · cases h
      · obtain rfl := Except.ok.inj h
        exact .cons (readVector_of_takeVector htake) .nil
  · rintro ⟨v, hv, hbad⟩
    obtain rfl := List.mem_singleton.1 hv
    obtain ⟨w, hw⟩ := exists_of_takeVector hbad
    rw [hw]
    exact ⟨w, rfl⟩

theorem readsFrom_readPath (statement : List Char) {body : List Char}
    (hlength : ¬ (pathPieces body).length < 2) (style : Style) :
    ReadsFrom (pathVectors (pathPieces body)) (readPath statement body style) := by
  unfold readPath
  dsimp only
  rw [if_neg hlength, readVertices_eq]
  constructor
  · intro st h
    split at h
    · cases h
    · rename_i hread
      obtain rfl := Except.ok.inj h
      exact forall₂_of_readEach hread
    · rename_i hread
      obtain rfl := Except.ok.inj h
      exact forall₂_of_readEach hread
  · rintro ⟨v, hv, hbad⟩
    cases hread : readEach readVector (pathVectors (pathPieces body)) with
    | error e =>
      obtain ⟨-, w, -, -, -, hw⟩ := readEach_eq_error_iff.1 hread
      obtain ⟨w', rfl⟩ := exists_of_readVector hw
      exact ⟨w', rfl⟩
    | ok vertices =>
      obtain ⟨p, -, hp⟩ := exists_of_forall₂ (forall₂_of_readEach hread) hv
      exact absurd hp (hbad p)

/-- A statement is read from its vectors, by one of three readers. -/
theorem Statement.readsFrom (t : List Char) : ReadsFrom (vectorTexts t) (Statement.read t) := by
  unfold Statement.read vectorTexts
  dsimp only
  cases takeModifiers (takeCommand t).2 with
  | error e => exact .of_error e
  | ok taken =>
    obtain ⟨style, body⟩ := taken
    dsimp only
    unfold bodyVectors
    by_cases hnode : occursIn nodeMarker body = true
    · rw [if_pos hnode, if_pos hnode]
      exact readsFrom_readLabel body style.color
    · rw [if_neg hnode, if_neg hnode]
      by_cases hcircle : occursIn circleMarker body = true
      · rw [if_pos hcircle, if_pos hcircle]
        exact readsFrom_readCircle hcircle _
      · rw [if_neg hcircle, if_neg hcircle]
        by_cases harc : occursIn arcMarker body = true
        · rw [if_pos harc, if_pos (.inl harc)]
          exact .of_error _
        · rw [if_neg harc]
          by_cases hlength : (pathPieces body).length < 2
          · rw [if_pos (.inr hlength), readPath, if_pos hlength]
            exact .of_error _
          · rw [if_neg fun h => h.elim harc hlength]
            exact readsFrom_readPath t hlength _

/-! ### Finite points -/

/-- Where nothing is moved no point becomes finite. -/
theorem isFinite_apply_identity {p : Point Float} :
    (Placement.identity.apply p).IsFinite ↔ p.IsFinite := by
  refine ⟨fun h => ?_, fun h => (real_apply_identity h).1⟩
  rw [apply_identity, Exact.sub_eq] at h
  exact ⟨(Exact.isFinite_of_add h.1).1, (Exact.isFinite_of_add h.2).2⟩

end Picture

/-- The points of a geometry that a picture text writes: both ends, all vertices, the centre or the
anchor. The rim of a circle is measured from its radius. -/
def Geometry.writtenPoints : Geometry Float → List (Point Float)
  | .line start stop => [start, stop]
  | .circle center _ => [center]
  | .polyline vertices => vertices
  | .curve start controls stop => start :: controls ++ [stop]
  | .label anchor _ => [anchor]

namespace Picture

theorem writtenPoints_place (placement : Placement) (figure : Figure) :
    (figure.place placement).writtenPoints = figure.points.map placement.apply := by
  cases figure <;> rfl

/-- A point is finite if and only if the two literals of its vector are. -/
def FiniteAsSpelled (literals? : Option (List Char × List Char)) (p : Point Float) : Prop :=
  ∃ x y, literals? = some (x, y) ∧ (p.IsFinite ↔ Literal.IsFinite x ∧ Literal.IsFinite y)

/-- A vector is written with two literals that spell a point. -/
def IsSpelled (literals? : Option (List Char × List Char)) : Prop :=
  ∃ literals p, literals? = some literals ∧ Spells literals p

theorem FiniteAsSpelled.of_spells {literals? : Option (List Char × List Char)} {p : Point Float}
    (h : ∃ literals, literals? = some literals ∧ Spells literals p) :
    FiniteAsSpelled literals? (Placement.identity.apply p) := by
  obtain ⟨literals, hliterals, hspells⟩ := h
  exact ⟨literals.1, literals.2, hliterals, isFinite_apply_identity.trans hspells.isFinite_iff⟩

/-- Where nothing is moved, the points of a picture are finite as the literals of its vectors are. -/
theorem finiteAsSpelled_of_read {text : List Char} {shapes : List (Shape Float)}
    (h : read .identity text = .ok shapes) :
    List.Forall₂ (fun t shape => List.Forall₂ (fun v p => FiniteAsSpelled (coordinates? v) p)
      (vectorTexts t) shape.geometry.writtenPoints) (statementTexts text) shapes := by
  obtain ⟨all, hall, rfl⟩ := exists_statements_of_read h
  rw [List.forall₂_map_right_iff]
  refine hall.imp fun t st hread => ?_
  have hplace : (st.place .identity).geometry.writtenPoints =
      st.figure.points.map Placement.identity.apply := writtenPoints_place _ st.figure
  rw [hplace, List.forall₂_map_right_iff]
  exact ((Statement.readsFrom t).points st hread).imp fun v p hv =>
    .of_spells (readVector_eq_ok_iff.1 hv)

/-- Where nothing is moved, the points of a vector list are finite as the literals of its lines are. -/
theorem finiteAsSpelled_of_readVectors {text : List Char} {shape : Shape Float}
    (h : readVectors .identity text = .ok shape) :
    List.Forall₂ (fun line p => FiniteAsSpelled (lineCoordinates? line) p) (vectorLines text)
      shape.geometry.writtenPoints := by
  rw [readVectors_eq] at h
  split at h
  · cases h
  · cases h
  · rename_i vertices _ hread
    obtain rfl := Except.ok.inj h
    have hpoints : List.Forall₂ (fun line p => FiniteAsSpelled (lineCoordinates? line) p)
        (vectorLines text) (vertices.map Placement.identity.apply) := by
      rw [List.forall₂_map_right_iff]
      exact (forall₂_of_readEach hread).imp fun line p hline =>
        .of_spells (readPair_eq_ok_iff.1 hline)
    exact hpoints

/-- A statement with a vector that is none is refused as malformed, if what stands before it is read. -/
theorem malformed_of_vectorTexts {text t : List Char} {before after : List (List Char)}
    (htexts : statementTexts text = before ++ t :: after)
    (hbefore : ∀ u ∈ before, ∃ st, Statement.read u = .ok st)
    (hbad : ∃ v ∈ vectorTexts t, ¬ IsSpelled (coordinates? v)) (placement : Placement) :
    ∃ v, read placement text = .error (.malformedVector v) := by
  obtain ⟨v, hv, hunspelled⟩ := hbad
  have hvector : ∀ p, readVector v ≠ .ok p := fun p hread => by
    obtain ⟨literals, hliterals⟩ := readVector_eq_ok_iff.1 hread
    exact hunspelled ⟨literals, p, hliterals⟩
  obtain ⟨w, hw⟩ := (Statement.readsFrom t).malformed ⟨v, hv, hvector⟩
  refine ⟨w, ?_⟩
  rw [read_eq, readStatements, readEach_eq_error_iff.2 ⟨before, t, after, htexts, hbefore, hw⟩]
  rfl

/-- A vector list with a line that is no vector is refused as malformed. -/
theorem malformed_of_vectorLines {text : List Char}
    (hbad : ∃ line ∈ vectorLines text, ¬ IsSpelled (lineCoordinates? line)) (placement : Placement) :
    ∃ v, readVectors placement text = .error (.malformedVector v) := by
  obtain ⟨line, hline, hunspelled⟩ := hbad
  cases hread : readEach readPair (vectorLines text) with
  | error e =>
    obtain ⟨-, u, -, -, -, hu⟩ := readEach_eq_error_iff.1 hread
    obtain rfl := exists_of_readPair hu
    exact ⟨_, by rw [readVectors_eq, hread]⟩
  | ok vertices =>
    obtain ⟨p, -, hp⟩ := exists_of_forall₂ (forall₂_of_readEach hread) hline
    obtain ⟨literals, hliterals⟩ := readPair_eq_ok_iff.1 hp
    exact absurd ⟨literals, p, hliterals⟩ hunspelled

/-- Where nothing is moved, a point of a picture is finite if and only if the two literals of its vector
spell decimals below the overflow, and so is a point of a vector list with the literals of its line. What
is no vector is refused as malformed, in a picture unless there is a fault before it. -/
theorem points_finite_iff (text : List Char) :
    (∀ shapes, read .identity text = .ok shapes →
      List.Forall₂ (fun t shape => List.Forall₂ (fun v p => FiniteAsSpelled (coordinates? v) p)
        (vectorTexts t) shape.geometry.writtenPoints) (statementTexts text) shapes) ∧
    (∀ shape, readVectors .identity text = .ok shape →
      List.Forall₂ (fun line p => FiniteAsSpelled (lineCoordinates? line) p) (vectorLines text)
        shape.geometry.writtenPoints) ∧
    (∀ before t after, statementTexts text = before ++ t :: after →
      (∀ u ∈ before, ∃ st, Statement.read u = .ok st) →
      (∃ v ∈ vectorTexts t, ¬ IsSpelled (coordinates? v)) →
      ∀ placement, ∃ v, read placement text = .error (.malformedVector v)) ∧
    ((∃ line ∈ vectorLines text, ¬ IsSpelled (lineCoordinates? line)) →
      ∀ placement, ∃ v, readVectors placement text = .error (.malformedVector v)) := by
  exact ⟨fun _ h => finiteAsSpelled_of_read h, fun _ h => finiteAsSpelled_of_readVectors h,
    fun _ _ _ htexts hbefore hbad placement =>
      malformed_of_vectorTexts htexts hbefore hbad placement,
    fun hbad placement => malformed_of_vectorLines hbad placement⟩

/-- A line from a finite point to one that is not: the literals of the first spell decimals below the
overflow, and one of the second does not. -/
theorem points_finite_iff_line :
    let text := "\\draw (1,-2.5e1) -- (Inf,0);".toList
    (∃ shapes, read .identity text = .ok shapes) ∧
      (Literal.IsFinite "1".toList ∧ Literal.IsFinite "-2.5e1".toList) ∧
      ¬ (Literal.IsFinite "Inf".toList ∧ Literal.IsFinite "0".toList) := by
  intro text
  have hcheck : (read .identity text).map (fun shapes => shapes.map fun shape =>
      shape.geometry.writtenPoints.map fun p => decide p.IsFinite) = .ok [[true, false]] := by
    decide +kernel
  have hvectors : (statementTexts text).map vectorTexts =
      [["(1,-2.5e1) ".toList, " (Inf,0)".toList]] := by
    decide +kernel
  obtain ⟨shapes, hread, hshapes⟩ := exists_of_map_eq_ok hcheck
  have hfinite : List.Forall₂ (List.Forall₂ fun v finite => ∃ x y, coordinates? v = some (x, y) ∧
      (finite = true ↔ Literal.IsFinite x ∧ Literal.IsFinite y))
      ((statementTexts text).map vectorTexts) (shapes.map fun shape =>
        shape.geometry.writtenPoints.map fun p => decide p.IsFinite) := by
    rw [List.forall₂_map_left_iff, List.forall₂_map_right_iff]
    refine ((points_finite_iff text).1 shapes hread).imp fun t shape hshape => ?_
    rw [List.forall₂_map_right_iff]
    refine hshape.imp fun v p hvector => ?_
    obtain ⟨x, y, hxy, hiff⟩ := hvector
    exact ⟨x, y, hxy, decide_eq_true_iff.trans hiff⟩
  rw [hvectors, hshapes, List.forall₂_cons] at hfinite
  obtain ⟨⟨x, y, hxy, hfirst⟩, ⟨z, w, hzw, hsecond⟩, -⟩ := by
    simpa only [List.forall₂_cons] using hfinite.1
  obtain ⟨rfl, rfl⟩ := Prod.mk.inj (Option.some.inj hxy)
  obtain ⟨rfl, rfl⟩ := Prod.mk.inj (Option.some.inj hzw)
  exact ⟨⟨shapes, hread⟩, hfirst.1 trivial, fun h => Bool.false_ne_true (hsecond.2 h)⟩

/-- A line that starts at infinity, and a vector list with a point that is neither finite nor a number,
are read. -/
theorem infinite_points :
    (∃ shapes, read .identity "\\draw (inf,0) -- (1,0);".toList = .ok shapes ∧
      ∃ shape ∈ shapes, ∃ p ∈ shape.geometry.writtenPoints, ¬ p.IsFinite) ∧
    ∃ shape, readVectors .identity "(0,0)\n(1e999,nan)".toList = .ok shape ∧
      ∃ p ∈ shape.geometry.writtenPoints, ¬ p.IsFinite := by
  constructor
  · have hcheck : (read .identity "\\draw (inf,0) -- (1,0);".toList).map (fun shapes =>
        shapes.any fun shape => shape.geometry.writtenPoints.any fun p => decide ¬ p.IsFinite) =
        .ok true := by
      decide +kernel
    obtain ⟨shapes, hread, hshapes⟩ := exists_of_map_eq_ok hcheck
    obtain ⟨shape, hshape, hany⟩ := List.any_eq_true.1 hshapes
    obtain ⟨p, hp, hinfinite⟩ := List.any_eq_true.1 hany
    exact ⟨shapes, hread, shape, hshape, p, hp, of_decide_eq_true hinfinite⟩
  · have hcheck : (readVectors .identity "(0,0)\n(1e999,nan)".toList).map (fun shape =>
        shape.geometry.writtenPoints.any fun p => decide ¬ p.IsFinite) = .ok true := by
      decide +kernel
    obtain ⟨shape, hread, hany⟩ := exists_of_map_eq_ok hcheck
    obtain ⟨p, hp, hinfinite⟩ := List.any_eq_true.1 hany
    exact ⟨shape, hread, p, hp, of_decide_eq_true hinfinite⟩

end Picture

end Draftboard
