import Draftboard.Proofs.Picture.Statement

/-!
# Draftboard.Proofs.Picture.RoundTrip

Writing shapes and reading them gives their normal forms.

* `Shape.normal` is the shape that comes back: coordinates and radii are the numbers that their
  texts spell, a curve is the polyline of its export, and of the style the part is left that means
  something for the kind.
* A shape is `Writable` if its radius is finite, a polyline has three vertices, a curve has at most
  21 points, and a label is `RereadableLabel`: one line without a comment whose braces, followed by
  `BraceScan`, close exactly where the label ends.
* `read_write` is the round trip for writable shapes, and `read_write_of_recoverable` the same for
  labels of several lines.
-/

namespace Draftboard

open Text Picture

/-! ### Normal forms -/

/-- A point as it comes back from a picture that is not moved. -/
def Point.normal (p : Point Float) : Point Float := Placement.identity.apply p.spelled

/-- A geometry as it comes back. -/
def Geometry.normal : Geometry Float → Geometry Float
  | .line start stop => .line start.normal stop.normal
  | .circle center rim =>
    .circleOf center.normal (Literal.value (Format.fixedPoint 2 (center.distance rim)))
  | .polyline vertices => .polyline (vertices.map Point.normal)
  | .curve start controls stop =>
    .polyline ((Curve.sample (Curve.controlPolygon start controls stop)
      (23 + 2 * controls.length)).map Point.normal)
  | .label anchor text => .label anchor.normal text

/-- A shape as it comes back, with nothing derived from it yet. -/
def Shape.normal (s : Shape Float) : Shape Float :=
  { geometry := s.geometry.normal, style := s.style.normal s.kind }

/-- A curve comes back with 24 vertices and two more for each control point. -/
theorem Geometry.length_vertices_normal_curve (start : Point Float) (controls : List (Point Float))
    (stop : Point Float) :
    (Geometry.curve start controls stop).normal.vertices.length = 24 + 2 * controls.length := by
  rw [normal, vertices, List.length_map, Curve.length_sample]
  omega

/-- What the text of a shape states is its normal form, if it is not moved. -/
theorem Shape.place_statement (s : Shape Float) :
    s.statement.place Placement.identity = s.normal := by
  have hgeometry : s.geometry.figure.place Placement.identity = s.geometry.normal := by
    cases s.geometry with
    | line start stop => rfl
    | circle center rim =>
      have hscale : ∀ r : Float, r * Placement.identity.scale = r := Exact.mul_one
      rw [Geometry.figure, Figure.place, hscale]
      rfl
    | polyline vertices => rw [Geometry.figure, Figure.place, List.map_map]; rfl
    | curve start controls stop => rw [Geometry.figure, Figure.place, List.map_map]; rfl
    | label anchor text => rw [Geometry.figure, Figure.place, String.ofList_toList]; rfl
  rw [Statement.place, Shape.statement, hgeometry, Shape.normal]

namespace Picture

/-- Recoverable shapes come back in their normal forms, in order. -/
theorem read_write_of_recoverable {shapes : List (Shape Float)}
    (h : ∀ s ∈ shapes, s.geometry.Recoverable) :
    read Placement.identity (write shapes) = .ok (shapes.map Shape.normal) := by
  have hplace : (shapes.map Shape.statement).map (Statement.place Placement.identity) =
      shapes.map Shape.normal := by
    rw [List.map_map]
    exact List.map_congr_left fun s _ => s.place_statement
  rw [read_eq, readStatements_write h, ← hplace]
  rfl

/-! ### Labels of one line -/

/-- A label that can be written and read again: it has no line feed and no comment, and a scan that
has read an opening brace leaves it nowhere in the label and stands just inside of it at the end. -/
structure RereadableLabel (label : List Char) : Prop where
  oneLine : '\n' ∉ label
  uncommented : beforeComment false label = label
  inside : ∀ n ≤ label.length, (BraceScan.run {} ('{' :: label.take n)).depth ≠ 0
  closed : BraceScan.run {} ('{' :: label) = { depth := 1 }

instance (label : List Char) : Decidable (RereadableLabel label) :=
  decidable_of_iff
    ('\n' ∉ label ∧ beforeComment false label = label ∧
      (∀ n ≤ label.length, (BraceScan.run {} ('{' :: label.take n)).depth ≠ 0) ∧
      BraceScan.run {} ('{' :: label) = { depth := 1 })
    ⟨fun ⟨a, b, c, d⟩ => ⟨a, b, c, d⟩, fun ⟨a, b, c, d⟩ => ⟨a, b, c, d⟩⟩

/-- Braces that close on one line close everywhere. -/
theorem RereadableLabel.recoverable {label : List Char} (h : RereadableLabel label) :
    RecoverableLabel label := by
  constructor
  · have hline : ∀ c ∈ '{' :: label ++ ['}'], (c == '\n') = false := by
      intro c hc
      refine beq_eq_false_iff_ne.2 ?_
      rintro rfl
      rcases List.mem_append.1 hc with hc | hc
      · exact h.oneLine ((List.mem_cons.1 hc).resolve_left (by decide))
      · exact absurd hc (by decide)
    unfold LegibleText
    rw [splitWhere_of_none hline]
    intro line hl
    obtain rfl := List.mem_singleton.1 hl
    refine ⟨⟨?_, isEnvironmentLine_brace _⟩, by rw [List.getLast?_concat]; decide⟩
    refine beforeComment_append_of_not_mem ?_ (by decide)
    rw [beforeComment_brace, h.uncommented]
  · refine upToClosing?_of_run (by decide) (fun before hb => ?_) h.closed
    have hinside := h.inside before.length hb.length_le
    rwa [← List.prefix_iff_eq_take.1 hb] at hinside

end Picture

/-! ### Writable shapes -/

/-- A geometry that can be written, by what a circle, a polyline, a curve and a label have to be. -/
def Geometry.Writable : Geometry Float → Prop
  | .line .. => True
  | .circle center rim => (center.distance rim).isFinite = true
  | .polyline vertices => 3 ≤ vertices.length
  | .curve _ controls _ => controls.length + 2 ≤ 21
  | .label _ text => RereadableLabel text.toList

instance : (g : Geometry Float) → Decidable g.Writable
  | .line .. => .isTrue trivial
  | .circle center rim => inferInstanceAs (Decidable ((center.distance rim).isFinite = true))
  | .polyline vertices => inferInstanceAs (Decidable (3 ≤ vertices.length))
  | .curve _ controls _ => inferInstanceAs (Decidable (controls.length + 2 ≤ 21))
  | .label _ text => inferInstanceAs (Decidable (RereadableLabel text.toList))

theorem Geometry.Writable.recoverable {g : Geometry Float} (h : g.Writable) : g.Recoverable := by
  cases g with
  | line => trivial
  | circle => exact h
  | polyline => exact h
  | curve => trivial
  | label => exact RereadableLabel.recoverable h

namespace Picture

/-- Writable shapes come back in their normal forms, in order. -/
theorem read_write {shapes : List (Shape Float)} (h : ∀ s ∈ shapes, s.geometry.Writable) :
    read Placement.identity (write shapes) = .ok (shapes.map Shape.normal) :=
  read_write_of_recoverable fun s hs => (h s hs).recoverable

/-- One shape of each kind; the label nests braces and has a formula, escapes and semicolons. -/
def fiveKinds : List (Shape Float) :=
  [{ geometry := .line ⟨0, -1⟩ ⟨2, 3⟩
     style := { color := ⟨.red, Scalar.ratio 1 3⟩, dashed := true, backArrow := true,
                thickness := .veryThick } },
   { geometry := .circle ⟨1, 1⟩ ⟨4, 5⟩
     style := { color := ⟨.black, Scalar.ratio 1 2⟩, filled := true } },
   { geometry := .polyline [⟨0, 0⟩, ⟨1, 0⟩, ⟨0, 1⟩, ⟨0, 0⟩], style := { filled := true } },
   { geometry := .curve ⟨0, 0⟩ [⟨1, 2⟩, ⟨2, -2⟩] ⟨3, 0⟩, style := { frontArrow := true } },
   { geometry := .label ⟨1, -2⟩ "a; \x7b$x_\x7b1\x7d;$ \\\x7d 5\\% b\x7d"
     style := { color := ⟨.blue, 1⟩ } }]

theorem read_write_fiveKinds : (∀ s ∈ fiveKinds, s.geometry.Writable) ∧
    read Placement.identity (write fiveKinds) = .ok (fiveKinds.map Shape.normal) :=
  ⟨by decide +kernel, read_write (by decide +kernel)⟩

end Picture

end Draftboard
