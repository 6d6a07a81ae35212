import Draftboard.Proofs.Picture.Reread

/-!
# Draftboard.Proofs.Picture.Returns

Which shapes come back.

* Reading drops a carriage return that stands before a line feed, and makes none. So a written text
  of which every label comes back has no such pair in a label: the carriage returns of the labels are
  all that there are in the text (`count_write`), and its lines have fewer (`count_lines_lt`).
* A label that comes back stood between braces in the visible text. Without such a pair that is what
  it takes to be read from any text (`ReadsBack.recoverableLabel`).
* Then the text of each shape is one statement, and only a radius that is not finite can make it
  unreadable. So shapes come back with their labels if and only if they are recoverable
  (`readsBack_iff`).
-/

namespace Draftboard

open Text Picture

namespace Text

/-! ### Carriage returns -/

/-- Texts of which some are left out, and of the others some characters. -/
theorem flatten_filter_map_sublist {f : List Char → List Char} (hf : ∀ s, List.Sublist (f s) s)
    (p : List Char → Bool) (ss : List (List Char)) :
    List.Sublist ((ss.map f).filter p).flatten ss.flatten := by
  induction ss with
  | nil => exact List.Sublist.refl _
  | cons s ss ih =>
    rw [List.map_cons, List.filter_cons]
    split
    · exact (hf s).append ih
    · exact ih.trans (List.sublist_append_right s _)

theorem flatten_consHead (c : Char) (ss : List (List Char)) :
    (consHead c ss).flatten = c :: ss.flatten := by
  cases ss <;> rfl

theorem count_joinWith {sep : List Char} {c : Char} (hc : c ∉ sep) (ss : List (List Char)) :
    (joinWith sep ss).count c = ss.flatten.count c := by
  induction ss with
  | nil => rfl
  | cons s ss ih =>
    by_cases hss : ss = []
    · subst hss
      simp [joinWith]
    · rw [joinWith_cons hss, List.flatten_cons, List.count_append, List.count_append, ih,
        List.count_append, List.count_eq_zero_of_not_mem hc, Nat.add_zero]

/-- The lines of a text have no more carriage returns than the text. -/
theorem count_lines_le (s : List Char) : (lines s).flatten.count '\r' ≤ s.count '\r' := by
  fun_induction lines s with
  | case1 => exact Nat.le_refl _
  | case2 r ih =>
    simp only [List.flatten_cons, List.nil_append, List.count_cons]
    omega
  | case3 r ih =>
    simp only [List.flatten_cons, List.nil_append, List.count_cons]
    omega
  | case4 c r _ _ ih =>
    simp only [flatten_consHead, List.count_cons]
    omega

/-- They have fewer if one stands before a line feed. -/
theorem count_lines_lt {s : List Char} (h : ['\r', '\n'] <:+: s) :
    (lines s).flatten.count '\r' < s.count '\r' := by
  fun_induction lines s with
  | case1 => exact absurd (List.infix_nil.1 h) (List.cons_ne_nil _ _)
  | case2 r _ =>
    have hle := count_lines_le r
    simp only [List.flatten_cons, List.nil_append, List.count_cons]
    simp
    omega
  | case3 r ih =>
    rcases List.infix_cons_iff.1 h with hprefix | hrest
    · exact absurd (List.cons_prefix_cons.1 hprefix).1 (by decide)
    · have hlt := ih hrest
      simp only [List.flatten_cons, List.nil_append, List.count_cons]
      omega
  | case4 c r hcr _ ih =>
    rcases List.infix_cons_iff.1 h with hprefix | hrest
    · obtain ⟨rfl, hr⟩ := List.cons_prefix_cons.1 hprefix
      obtain ⟨u, rfl⟩ := hr
      exact (hcr u rfl rfl).elim
    · have hlt := ih hrest
      simp only [flatten_consHead, List.count_cons]
      omega

end Text

namespace Picture

theorem count_visible_le (text : List Char) :
    (visible text).count '\r' ≤ (lines text).flatten.count '\r' := by
  rw [visible, count_joinWith (by decide)]
  have hline := fun s => (prefix_beforeComment false s).sublist
  exact (flatten_filter_map_sublist hline _ _).count_le _

theorem flatten_statements_sublist (scan : BraceScan) (text : List Char) :
    List.Sublist (statements scan text).flatten text := by
  induction text generalizing scan with
  | nil => exact List.Sublist.refl _
  | cons c r ih =>
    rw [statements]
    split
    · exact (ih _).cons c
    · rw [flatten_consHead]
      exact (ih _).cons_cons c

theorem count_statementTexts_le (text : List Char) :
    (statementTexts text).flatten.count '\r' ≤ (visible text).count '\r' :=
  ((flatten_filter_map_sublist (fun s => (trim_isInfix s).sublist) _ _).trans
    (flatten_statements_sublist {} _)).count_le _

end Picture

/-! ### The carriage returns of labels -/

/-- The number of carriage returns in a label. Other geometries have none. -/
def Geometry.returns (g : Geometry Float) : Nat := (g.text?.getD "").toList.count '\r'

namespace Geometry

theorem eq_label_of_kind {g : Geometry Float} (h : g.kind = .label) :
    ∃ anchor text, g = .label anchor text := by
  cases g with
  | label anchor text => exact ⟨anchor, text, rfl⟩
  | line | circle | polyline | curve => cases h

theorem eq_label_of_text? {g : Geometry Float} {text : String} (h : g.text? = some text) :
    ∃ anchor, g = .label anchor text := by
  cases g with
  | label anchor shown =>
    obtain rfl := Option.some.inj h
    exact ⟨anchor, rfl⟩
  | line | circle | polyline | curve => cases h

theorem returns_of_kind {g : Geometry Float} (h : g.kind ≠ .label) : g.returns = 0 := by
  cases g with
  | label anchor text => exact absurd rfl h
  | line | circle | polyline | curve => rfl

end Geometry

namespace Picture

/-- A label is a part of its statement. -/
theorem Statement.returns_place_le {t : List Char} {st : Statement} (h : Statement.read t = .ok st)
    (placement : Placement) : (st.place placement).geometry.returns ≤ t.count '\r' := by
  obtain ⟨body, style, fills, hbody, -, hlabel | hcircle | hpath⟩ := cases_of_read h
  · obtain ⟨anchor, text, rfl, hpart, -⟩ := braces_of_readLabel hlabel
    have hinner : text <:+: '{' :: text ++ ['}'] := ⟨['{'], ['}'], rfl⟩
    show (String.ofList text).toList.count '\r' ≤ _
    rw [String.toList_ofList]
    exact ((hinner.trans hpart).trans hbody.isInfix).sublist.count_le _
  · obtain ⟨center, radius, rfl⟩ := of_readCircle hcircle
    exact Nat.zero_le _
  · rcases of_readPath hpath with ⟨start, stop, rfl⟩ | ⟨vertices, -, rfl⟩
    · exact Nat.zero_le _
    · exact Nat.zero_le _

theorem sum_returns_place_le {ts : List (List Char)} {all : List Statement}
    (h : List.Forall₂ (fun t st => Statement.read t = .ok st) ts all) (placement : Placement) :
    ((all.map (Statement.place placement)).map fun s => s.geometry.returns).sum ≤
      ts.flatten.count '\r' := by
  induction h with
  | nil => exact Nat.le_refl _
  | cons hread _ ih =>
    rw [List.map_cons, List.map_cons, List.sum_cons, List.flatten_cons, List.count_append]
    exact Nat.add_le_add (Statement.returns_place_le hread placement) ih

/-- The labels that are read from a text have no more carriage returns than its lines. -/
theorem sum_returns_le {placement : Placement} {text : List Char} {back : List (Shape Float)}
    (h : read placement text = .ok back) :
    (back.map fun s => s.geometry.returns).sum ≤ (lines text).flatten.count '\r' := by
  obtain ⟨all, hall, rfl⟩ := exists_statements_of_read h
  calc _ ≤ (statementTexts text).flatten.count '\r' := sum_returns_place_le hall placement
    _ ≤ (visible text).count '\r' := count_statementTexts_le text
    _ ≤ (lines text).flatten.count '\r' := count_visible_le text

/-- Of a shape only the label has carriage returns in its text. -/
theorem count_writeShape (s : Shape Float) :
    (writeShape s).count '\r' = s.geometry.returns := by
  have hplain : ∀ {t : List Char}, t ⊆ plainCharacters →
      (command s.style s.kind ++ modifierBlock s.style s.kind ++ ' ' :: t).count '\r' = 0 :=
    fun ht => List.count_eq_zero_of_not_mem fun hc =>
      absurd (head_subset s.style s.kind ht hc) (by decide)
  have hend : (';' :: ['\n']).count '\r' = 0 := by decide
  rw [writeShape_eq, List.count_append, hend, Nat.add_zero]
  by_cases hk : s.geometry.kind = .label
  · obtain ⟨anchor, text, hg⟩ := Geometry.eq_label_of_kind hk
    rw [statementText_label hg, List.count_append, hplain (labelHead_subset anchor), Nat.zero_add,
      hg]
    show ('{' :: text.toList ++ ['}']).count '\r' = text.toList.count '\r'
    rw [List.count_append, List.count_cons_of_ne (by decide)]
    rfl
  · rw [Geometry.returns_of_kind hk, statementText, hplain (body_subset hk)]

/-- A label stands in the text of its shape. -/
theorem isInfix_writeShape {s : Shape Float} {label : String} (h : s.geometry.text? = some label) :
    label.toList <:+: writeShape s := by
  obtain ⟨anchor, hg⟩ := Geometry.eq_label_of_text? h
  refine ⟨command s.style s.kind ++ modifierBlock s.style s.kind ++ ' ' :: labelHead anchor ++
    ['{'], ['}', ';', '\n'], ?_⟩
  rw [writeShape_eq, statementText_label hg]
  simp only [List.append_assoc, List.cons_append, List.nil_append]

theorem isInfix_write {shapes : List (Shape Float)} {s : Shape Float} (hs : s ∈ shapes) :
    writeShape s <:+: write shapes := by
  obtain ⟨before, after, rfl⟩ := List.append_of_mem hs
  exact ⟨write before, write after, by simp [write]⟩

theorem count_write (shapes : List (Shape Float)) :
    (write shapes).count '\r' = (shapes.map fun s => s.geometry.returns).sum := by
  rw [write, List.count_flatMap]
  exact congrArg List.sum (List.map_congr_left fun s _ => count_writeShape s)

end Picture

/-! ### Shapes that come back -/

/-- A polyline has three vertices, as one that is read has. -/
def Geometry.Tall (g : Geometry Float) : Prop := g.kind = .polyline → 3 ≤ g.vertices.length

/-- A shape with the label of another one, if that one has a label. -/
def Shape.KeepsLabel (s t : Shape Float) : Prop :=
  ∀ label, s.geometry.text? = some label → t.geometry.text? = some label

/-- The shapes can be written and read again, one shape for each, in order and with the labels that
they had. -/
def ReadsBack (shapes : List (Shape Float)) : Prop :=
  ∃ back, read Placement.identity (write shapes) = .ok back ∧
    List.Forall₂ Shape.KeepsLabel shapes back

namespace ReadsBack

variable {shapes back : List (Shape Float)} {s : Shape Float} {label : String}

/-- No carriage return of a label gets lost. -/
theorem sum_returns_le (h : List.Forall₂ Shape.KeepsLabel shapes back) :
    (shapes.map fun s => s.geometry.returns).sum ≤ (back.map fun s => s.geometry.returns).sum := by
  induction h with
  | nil => exact Nat.le_refl _
  | @cons s t _ _ hlabel _ ih =>
    have hle : s.geometry.returns ≤ t.geometry.returns := by
      unfold Geometry.returns
      cases htext : s.geometry.text? with
      | none => exact Nat.zero_le _
      | some label => rw [hlabel label htext]
    rw [List.map_cons, List.map_cons, List.sum_cons, List.sum_cons]
    exact Nat.add_le_add hle ih

/-- A label that comes back does not break its lines after carriage returns. -/
theorem no_break (h : ReadsBack shapes) (hs : s ∈ shapes) (hlabel : s.geometry.text? = some label) :
    ¬ ['\r', '\n'] <:+: label.toList := by
  obtain ⟨back, hread, hback⟩ := h
  intro hbreak
  have hpart := (isInfix_writeShape hlabel).trans (isInfix_write hs)
  have hlost := Text.count_lines_lt (hbreak.trans hpart)
  rw [count_write] at hlost
  have hkept := (ReadsBack.sum_returns_le hback).trans (Picture.sum_returns_le hread)
  omega

/-- A label that comes back is recoverable. -/
theorem recoverableLabel (h : ReadsBack shapes) (hs : s ∈ shapes)
    (hlabel : s.geometry.text? = some label) : RecoverableLabel label.toList := by
  have hbreak := h.no_break hs hlabel
  obtain ⟨back, hread, hback⟩ := h
  obtain ⟨t, ht, hkeeps⟩ := exists_of_forall₂ hback hs
  obtain ⟨part, hpart, st, hst, rfl⟩ := exists_statement_of_read hread t ht
  obtain ⟨hbraces, hclosed⟩ := Statement.braces_of_label hpart hst (hkeeps label hlabel)
  exact recoverableLabel_of_visible hbreak hbraces hclosed

/-- Shapes that come back are told apart by their texts. -/
theorem delimited (h : ReadsBack shapes) (hs : s ∈ shapes) (htall : s.geometry.Tall) :
    s.geometry.Delimited := by
  cases hg : s.geometry with
  | polyline vertices =>
    rw [hg] at htall
    rintro rfl
    exact absurd (htall rfl) (by decide)
  | label anchor label => exact h.recoverableLabel hs (by rw [hg]; rfl)
  | line | circle | curve => trivial

/-- The text of a shape that comes back is read. -/
theorem exists_statement (h : ReadsBack shapes) (htall : ∀ s ∈ shapes, s.geometry.Tall)
    (hs : s ∈ shapes) : ∃ st, Statement.read (statementText s) = .ok st := by
  have htexts := statementTexts_write fun s hs => h.delimited hs (htall s hs)
  obtain ⟨back, hread, -⟩ := h
  obtain ⟨all, hall, -⟩ := exists_statements_of_read hread
  rw [htexts, List.forall₂_map_left_iff] at hall
  obtain ⟨st, -, hst⟩ := exists_of_forall₂ hall hs
  exact ⟨st, hst⟩

/-- A shape that comes back is recoverable. -/
theorem recoverable (h : ReadsBack shapes) (htall : ∀ s ∈ shapes, s.geometry.Tall)
    (hs : s ∈ shapes) : s.geometry.Recoverable := by
  cases hg : s.geometry with
  | circle center rim =>
    obtain ⟨st, hst⟩ := h.exists_statement htall hs
    show (center.distance rim).isFinite = true
    by_contra hinfinite
    obtain ⟨e, he⟩ := read_statementText_error hg (Bool.eq_false_iff.2 hinfinite)
    rw [hst] at he
    cases he
  | polyline vertices => exact (hg ▸ htall s hs : (Geometry.polyline vertices).Tall) rfl
  | label anchor label => exact h.recoverableLabel hs (by rw [hg]; rfl)
  | line | curve => trivial

end ReadsBack

/-- Shapes whose polylines have three vertices come back with their labels if and only if they are
recoverable. -/
theorem readsBack_iff {shapes : List (Shape Float)} (htall : ∀ s ∈ shapes, s.geometry.Tall) :
    ReadsBack shapes ↔ ∀ s ∈ shapes, s.geometry.Recoverable := by
  constructor
  · exact fun h s hs => h.recoverable htall hs
  · intro h
    refine ⟨shapes.map Shape.normal, read_write_of_recoverable h, ?_⟩
    rw [List.forall₂_map_right_iff, List.forall₂_same]
    intro s _ label hlabel
    obtain ⟨anchor, hg⟩ := Geometry.eq_label_of_text? hlabel
    show s.geometry.normal.text? = some label
    rw [hg]
    rfl

end Draftboard
