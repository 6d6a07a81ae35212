import Draftboard.Command.Basic
import Draftboard.Proofs.Picture.Reread
import Draftboard.Proofs.Picture.Settled
import Draftboard.Proofs.Picture.Tint

/-!
# Draftboard.Proofs.Command.Import

Importing what has been imported.

* The shapes of an import are those that are read from its texts (`exists_read_of_load`), and a
  tint that is read is not below zero (`Statement.tint_place`).
* The output of an import whose shapes are settled is imported to itself (`importTexts_output`).
* Other outputs need not be (`unsettled_outputs`): numbers that are not finite, tints that are
  rounded up to one or to the half of black, circles too large for two decimals, and labels that
  break a line after carriage returns take further passes to settle.
-/

namespace Draftboard

open Text Picture

/-! ### Tints that are read -/

/-- A tint that is read is not below zero. -/
theorem Statement.tint_place {t : List Char} {st : Statement} (h : Statement.read t = .ok st)
    (placement : Placement) : ¬ (st.place placement).style.color.tint < 0 := by
  obtain ⟨ink, x, hcolor, -⟩ := (Statement.decides_of_read h).exists_tinted
  have hplace : (st.place placement).style.color = .tinted ink x := hcolor
  rw [hplace]
  exact Exact.not_clamp_lt_zero x

/-! ### Settled pictures -/

namespace Picture

/-- What is read can be written, read and written again without a change, if it is settled. -/
theorem write_read_of_settled {shapes : List (Shape Float)}
    (hread : ∀ s ∈ shapes, ∃ placement text, ∃ t ∈ statementTexts text, ∃ st,
      Statement.read t = .ok st ∧ s = st.place placement)
    (hsettled : ∀ s ∈ shapes, s.Settled) :
    ∃ again, read Placement.identity (write shapes) = .ok again ∧ write again = write shapes := by
  refine ⟨shapes.map Shape.normal, read_write_of_recoverable fun s hs => ?_, ?_⟩
  · obtain ⟨placement, text, t, ht, st, hst, rfl⟩ := hread s hs
    have hgeometry := (hsettled _ hs).geometry
    refine Statement.recoverable_place ht hst (fun r hr => ?_) fun label hlabel => ?_
    · cases hg : (st.place placement).geometry with
      | circle center rim =>
        rw [hg] at hgeometry hr
        obtain rfl := Option.some.inj hr
        exact hgeometry.2.1
      | line | polyline | curve | label => rw [hg] at hr; cases hr
    · cases hg : (st.place placement).geometry with
      | label anchor text =>
        rw [hg] at hgeometry hlabel
        obtain rfl := Option.some.inj hlabel
        exact hgeometry.2
      | line | polyline | curve | circle => rw [hg] at hlabel; cases hlabel
  · rw [write, write, List.flatMap_map]
    refine List.flatMap_congr fun s hs => ?_
    obtain ⟨placement, text, t, -, st, hst, rfl⟩ := hread s hs
    exact writeShape_normal (hsettled _ hs) (Statement.tint_place hst placement)

end Picture

/-! ### Imports -/

namespace Command

/-- What a text adds to a session is read from it. -/
theorem exists_read_of_appendAll {placement : Placement} {texts : List String} {s t : Session}
    (h : appendAll placement s texts = .ok t) : ∀ shape ∈ t.diagram.shapes,
      shape ∈ s.diagram.shapes ∨
        ∃ text ∈ texts, ∃ shapes, read placement text.toList = .ok shapes ∧ shape ∈ shapes := by
  induction texts generalizing s with
  | nil =>
    obtain rfl := Except.ok.inj h
    exact fun shape hshape => .inl hshape
  | cons text texts ih =>
    rw [appendAll, loadText] at h
    cases hread : read placement text.toList with
    | error e => rw [hread] at h; cases h
    | ok shapes =>
      rw [hread] at h
      intro shape hshape
      rcases ih h shape hshape with hmem | ⟨u, hu, hmem⟩
      · rcases List.mem_append.1 hmem with hmem | hmem
        · exact .inl hmem
        · exact .inr ⟨text, List.mem_cons_self, shapes, hread, hmem⟩
      · exact .inr ⟨u, List.mem_cons_of_mem _ hu, hmem⟩

/-- The shapes of a list of texts are read from them. -/
theorem exists_read_of_load {placement : Placement} {texts : List String} {s : Session}
    (h : load placement texts = .ok s) : ∀ shape ∈ s.diagram.shapes,
      ∃ text ∈ texts, ∃ shapes, read placement text.toList = .ok shapes ∧ shape ∈ shapes := by
  cases texts with
  | nil => cases h
  | cons text texts =>
    rw [load, loadText] at h
    cases hread : read placement text.toList with
    | error e => rw [hread] at h; cases h
    | ok shapes =>
      rw [hread] at h
      intro shape hshape
      rcases exists_read_of_appendAll h shape hshape with hmem | ⟨u, hu, hmem⟩
      · exact ⟨text, List.mem_cons_self, shapes, hread, hmem⟩
      · exact ⟨u, List.mem_cons_of_mem _ hu, hmem⟩

/-- The import of one text. -/
theorem importTexts_singleton {placement : Placement} {text : String} {shapes : List (Shape Float)}
    (h : read placement text.toList = .ok shapes) :
    importTexts placement .text [text] = .ok (String.ofList (write shapes)) := by
  rw [importTexts, load, loadText, h]
  rfl

/-- An output whose shapes are settled is imported to itself, where nothing is moved. -/
theorem importTexts_output {placement : Placement} {texts : List String} {s : Session}
    (h : load placement texts = .ok s) (hsettled : ∀ shape ∈ s.diagram.shapes, shape.Settled) :
    ∃ output, importTexts placement .text texts = .ok output ∧
      importTexts .identity .text [output] = .ok output := by
  have hread := exists_read_of_load h
  obtain ⟨again, hagain, hwrite⟩ := write_read_of_settled (fun shape hshape => by
    obtain ⟨text, -, shapes, hshapes, hmem⟩ := hread shape hshape
    exact ⟨placement, text.toList, exists_statement_of_read hshapes shape hmem⟩) hsettled
  refine ⟨String.ofList (write s.diagram.shapes), by rw [importTexts, h]; rfl, ?_⟩
  rw [importTexts_singleton (by rw [String.toList_ofList]; exact hagain), hwrite]

/-- A circle, an arrow and a label whose numbers are rounded when they are written. -/
def roughText : String :=
  "\\filldraw[color = blue!30.7, thick] (0.33333,1) circle(1.005 cm); % rim\n" ++
    "\\draw[color = black!50, ->] (0,0) -- (2.00005,-0.00001); node at (1,0) \x7ba\n b\x7d;"

theorem importTexts_output_roughText : ∃ s, load ⟨2, 0⟩ [roughText] = .ok s ∧
    (∀ shape ∈ s.diagram.shapes, shape.Settled) ∧ s.diagram.shapes.length = 3 ∧
      ∃ output, importTexts ⟨2, 0⟩ .text [roughText] = .ok output ∧
        importTexts .identity .text [output] = .ok output := by
  have hcheck : ((load ⟨2, 0⟩ [roughText]).map fun s => s.diagram.shapes.length == 3 &&
      s.diagram.shapes.all fun shape => decide shape.Settled) = .ok true := by
    decide +kernel
  cases hload : load ⟨2, 0⟩ [roughText] with
  | error e => rw [hload] at hcheck; cases hcheck
  | ok s =>
    rw [hload] at hcheck
    have hcheck' := Except.ok.inj hcheck
    rw [Bool.and_eq_true, beq_iff_eq, List.all_eq_true] at hcheck'
    obtain ⟨hlength, hall⟩ := hcheck'
    have hsettled : ∀ shape ∈ s.diagram.shapes, shape.Settled :=
      fun shape hshape => of_decide_eq_true (hall shape hshape)
    exact ⟨s, rfl, hsettled, hlength, importTexts_output hload hsettled⟩

/-! ### Outputs that are not settled -/

/-- An import whose output is not imported to itself. -/
def Unsettled (text output : String) : Prop :=
  importTexts .identity .text [text] = .ok output ∧
    importTexts .identity .text [output] ≠ .ok output

instance (text output : String) : Decidable (Unsettled text output) :=
  inferInstanceAs (Decidable (_ ∧ _))

/-- Tints that are rounded to a half or to one, or that are not a number, a point and a circle that
are not finite, a circle so large that its radius is measured differently the second time, and a
label with two carriage returns at the end of a line. -/
theorem unsettled_outputs :
    Unsettled "\\draw[color = black!50.1] (0,0) -- (1,0);"
        "\\draw[color = black!50] (0,0) -- (1,0);\n" ∧
      Unsettled "\\draw[color = red!99.9] (0,0) -- (1,0);"
        "\\draw[color = red!100] (0,0) -- (1,0);\n" ∧
      Unsettled "\\draw[color = black!nan] (0,0) -- (1,0);"
        "\\draw[color = black] (0,0) -- (1,0);\n" ∧
      Unsettled "\\draw (1,inf) -- (1,0);" "\\draw (NaN,inf) -- (1,0);\n" ∧
      Unsettled "\\draw (inf,0) circle(1 cm);" "\\draw (inf,NaN) circle(NaN cm);\n" ∧
      Unsettled "\\draw (0.99996,0) circle(9007199254740994 cm);"
        "\\draw (1,0) circle(9007199254740994.00 cm);\n" ∧
      Unsettled "\\draw node at (0,0) \x7ba\r\r\nb\x7d;" "\\draw node at (0,0) \x7ba\r\nb\x7d;\n" := by
  decide +kernel

end Command

end Draftboard
