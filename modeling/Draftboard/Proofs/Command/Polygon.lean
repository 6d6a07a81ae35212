import Draftboard.Proofs.Command.Import
import Draftboard.Proofs.Picture.Grammar

/-!
# Draftboard.Proofs.Command.Polygon

What becomes of a vector list when its polygon is written and imported.

The polygon has a vertex for each line with a vector (`exists_of_readVectors`), and it is written as one
path. A path of three vertices or more is read as a filled polygon again, one of two vertices is a line,
which is never filled, and one of a single vertex is no path (`read_write_polygon_of_le`,
`read_write_polygon_two`, `read_write_polygon_one`).
-/

namespace Draftboard

open Text Picture

/-- The filled polygon of a vector list. -/
def Shape.polygon (vertices : List (Point Float)) : Shape Float :=
  { geometry := .polyline vertices, style := { filled := true } }

/-- The style of a filled polygon is written without modifiers, so it comes back. -/
theorem Style.normal_filled : ({ filled := true } : Style).normal .polyline = { filled := true } :=
  rfl

theorem Shape.normal_polygon (vertices : List (Point Float)) :
    (polygon vertices).normal = polygon (vertices.map Point.normal) := by
  show ({ geometry := _, style := ({ filled := true } : Style).normal .polyline } : Shape Float) = _
  rw [Style.normal_filled]
  rfl

namespace Picture

variable {placement : Placement} {vertices : List (Point Float)}

/-- A vector list is read as the polygon of its vectors, one on each line that is not blank. -/
theorem exists_of_readVectors {text : List Char} {shape : Shape Float}
    (h : readVectors placement text = .ok shape) :
    ∃ vertices, vertices ≠ [] ∧ vertices.length = (vectorLines text).length ∧
      shape = .polygon vertices := by
  rw [readVectors_eq] at h
  split at h
  · cases h
  · cases h
  · rename_i points hne hread
    obtain rfl := Except.ok.inj h
    refine ⟨points.map placement.apply, ?_, ?_, rfl⟩
    · rintro hnil
      exact hne (List.map_eq_nil_iff.1 hnil)
    · rw [List.length_map, (forall₂_of_readEach hread).length_eq]

/-- A written polygon is one statement, and its body is read as a path. -/
theorem read_write_polygon (hne : vertices ≠ []) :
    read .identity (write [.polygon vertices]) =
      (readPath (statementText (.polygon vertices)) (path vertices) { filled := true }).map
        fun st => [st.place .identity] := by
  have hdelimited : (Shape.polygon vertices).geometry.Delimited := hne
  have hsubset : body (Shape.polygon vertices).geometry ⊆ ' ' :: pointCharacters :=
    List.Subset.trans (path_subset vertices) (List.subset_cons_self _ _)
  have hstatement : Statement.read (statementText (.polygon vertices)) =
      readPath (statementText (.polygon vertices)) (path vertices) { filled := true } := by
    rw [read_statementText_of_points hdelimited hsubset]
    show readPath _ (path vertices)
      { ({ filled := true } : Style).normal .polyline with filled := true } = _
    rw [Style.normal_filled]
  rw [read_eq, readStatements, statementTexts_write (by simpa using hdelimited), List.map_singleton,
    readEach, hstatement]
  cases readPath (statementText (.polygon vertices)) (path vertices) { filled := true } with
  | error e => rfl
  | ok st => rfl

theorem vectorText_point (p : Point Float) : VectorText p.spelled (point p) :=
  readVector_eq_ok_iff_vectorText.1 (readVector_point (trim_point p))

/-- A polygon of three vertices or more comes back filled. -/
theorem read_write_polygon_of_le (h : 3 ≤ vertices.length) :
    read .identity (write [.polygon vertices]) = .ok [.polygon (vertices.map Point.normal)] := by
  have hrecoverable : (Shape.polygon vertices).geometry.Recoverable := h
  rw [read_write_of_recoverable (by simpa using hrecoverable), List.map_singleton,
    Shape.normal_polygon]

/-- A polygon of two vertices comes back as the line between them. -/
theorem read_write_polygon_two (a b : Point Float) :
    read .identity (write [.polygon [a, b]]) =
      .ok [{ geometry := .line a.normal b.normal, style := {} }] := by
  have hpath : readPath (statementText (.polygon [a, b])) (path [a, b]) { filled := true } =
      .ok ⟨.line a.spelled b.spelled, {}⟩ :=
    readPath_eq_ok_iff.2 (.line (vectorText_point a) (.inl (vectorText_point b)))
  rw [read_write_polygon (List.cons_ne_nil _ _), hpath]
  rfl

/-- A polygon of one vertex is written as a statement that is not read. -/
theorem read_write_polygon_one (a : Point Float) :
    read .identity (write [.polygon [a]]) =
      .error (.noMatch (String.ofList (statementText (.polygon [a])))) := by
  have hpath : readPath (statementText (.polygon [a])) (path [a]) { filled := true } =
      .error (.noMatch (String.ofList (statementText (.polygon [a])))) := by
    rw [readPath, pathPieces_path (List.cons_ne_nil _ _), if_pos (by simp)]
  rw [read_write_polygon (List.cons_ne_nil _ _), hpath]
  rfl

end Picture

namespace Command

/-- The shapes that a text brings into an import where nothing is moved. -/
def imported (text : String) : Except Error (List (Shape Float)) :=
  (load .identity [text]).map fun s => s.diagram.shapes

/-- An import writes them, or is refused with their fault. -/
theorem importTexts_eq_imported (format : OutputFormat) (text : String) :
    importTexts .identity format [text] = (imported text).map (emit format) := by
  rw [importTexts, imported]
  cases load .identity [text] with
  | error e => rfl
  | ok s => rfl

theorem imported_eq (text : String) :
    imported text = (read .identity text.toList).mapError .read := by
  rw [imported, load, loadText]
  cases read .identity text.toList with
  | error e => rfl
  | ok shapes => rfl

/-- What the command for vector lists writes is the polygon of the vectors, one for each line that is not
blank. An import brings it back filled and with as many vertices if it has three or more. Two come back as
a line, which is not filled, and a single one is refused. -/
theorem imported_vectors {placement : Placement} {text output : String}
    (h : vectors placement .text text = .ok output) :
    ∃ vertices, readVectors placement text.toList = .ok (.polygon vertices) ∧
      vertices.length = (vectorLines text.toList).length ∧
      (∀ format, importTexts .identity format [output] = (imported output).map (emit format)) ∧
      (3 ≤ vertices.length → imported output = .ok [.polygon (vertices.map Point.normal)]) ∧
      (∀ a b, vertices = [a, b] →
        imported output = .ok [{ geometry := .line a.normal b.normal, style := {} }]) ∧
      ∀ a, vertices = [a] → imported output =
        .error (.read (.noMatch (String.ofList (statementText (.polygon [a]))))) := by
  unfold vectors at h
  split at h
  · rename_i shape hread
    obtain ⟨vertices, -, hlength, rfl⟩ := exists_of_readVectors hread
    obtain rfl := Except.ok.inj h
    have htext : (emit .text [.polygon vertices]).toList = write [.polygon vertices] :=
      String.toList_ofList
    refine ⟨vertices, hread, hlength, fun format => importTexts_eq_imported format _, ?_⟩
    rw [imported_eq, htext]
    refine ⟨fun hthree => ?_, ?_, ?_⟩
    · rw [read_write_polygon_of_le hthree]
      rfl
    · rintro a b rfl
      rw [read_write_polygon_two]
      rfl
    · rintro a rfl
      rw [read_write_polygon_one]
      rfl
  · cases h

/-- A list of three vectors in two ways, one of them on the other side of a blank line. -/
def threeVectors : String := "0 0\n\n(1,0)\n0.12345,1"

theorem imported_vectors_triangle : ∃ output, vectors .identity .text threeVectors = .ok output ∧
    ∃ vertices : List (Point Float), vertices.length = 3 ∧
      imported output = .ok [.polygon (vertices.map Point.normal)] := by
  have houtput : vectors .identity .text threeVectors =
      .ok "\\filldraw (0,0)--(1,0)--(0.1235,1);\n" := by decide +kernel
  obtain ⟨vertices, -, hlength, -, hthree, -⟩ := imported_vectors houtput
  have hlines : (vectorLines threeVectors.toList).length = 3 := by decide +kernel
  rw [hlines] at hlength
  exact ⟨_, houtput, vertices, hlength, hthree (by rw [hlength])⟩

/-- Lists of one vector and of two: the first polygon is refused, and the second one comes back as a
shape that is not filled. -/
theorem imported_vectors_short :
    (vectors .identity .text "0 0" = .ok "\\filldraw (0,0);\n" ∧
      importTexts .identity .text ["\\filldraw (0,0);\n"] =
        .error (.read (.noMatch "\\filldraw (0,0)"))) ∧
    (vectors .identity .text "0 0\n1 0" = .ok "\\filldraw (0,0)--(1,0);\n" ∧
      (imported "\\filldraw (0,0)--(1,0);\n").map (fun shapes =>
        shapes.map fun s => (s.kind, s.style.filled)) = .ok [(.line, false)]) := by
  decide +kernel

end Command

end Draftboard
