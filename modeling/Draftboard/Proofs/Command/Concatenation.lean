import Mathlib.Data.List.Induction
import Draftboard.Command.Basic
import Draftboard.Proofs.Picture.Concatenation

/-!
# Draftboard.Proofs.Command.Concatenation

Importing several texts as one.

A command puts the shapes of its texts on top of each other, so the last two of them may as well be
one text if the first of the two is finished (`load_append_pair`). Taking one text after another into
the last one, all of them become one (`load_join`).
-/

namespace Draftboard.Command

open Picture

variable {placement : Placement}

/-- However the first of two texts is loaded, the second one is put on top of it. -/
theorem loadText_append {first : List (Shape Float) → Transition}
    (hfirst : ∀ shapes more s,
      (first (shapes ++ more) s).1 = (Session.appendShapes more (first shapes s).1).1)
    {a b : String} (ha : Finished a.toList) (s : Session) :
    loadText first placement s (a ++ b) =
      match loadText first placement s a with
      | .error e => .error e
      | .ok s => loadText Session.appendShapes placement s b := by
  unfold loadText
  rw [String.toList_append, ha.read_append]
  cases read placement a.toList with
  | error e => rfl
  | ok shapes =>
    cases read placement b.toList with
    | error e => rfl
    | ok more => exact congrArg Except.ok (hfirst shapes more s)

/-- Two texts at the end of a list are one, if the first of them is finished. -/
theorem appendAll_append_pair {a b : String} (ha : Finished a.toList) (texts : List String)
    (s : Session) :
    appendAll placement s (texts ++ [a, b]) = appendAll placement s (texts ++ [a ++ b]) := by
  induction texts generalizing s with
  | nil =>
    have happend : ∀ shapes more (s : Session), (Session.appendShapes (shapes ++ more) s).1 =
        (Session.appendShapes more (Session.appendShapes shapes s).1).1 := by
      simp [Session.appendShapes, Diagram.append]
    rw [List.nil_append, List.nil_append, appendAll, appendAll, loadText_append happend ha]
    cases loadText Session.appendShapes placement s a with
    | error e => rfl
    | ok s => rfl
  | cons text texts ih =>
    rw [List.cons_append, List.cons_append, appendAll, appendAll]
    cases loadText Session.appendShapes placement s text with
    | error e => rfl
    | ok s => exact ih s

theorem load_append_pair {a b : String} (ha : Finished a.toList) (texts : List String) :
    load placement (texts ++ [a, b]) = load placement (texts ++ [a ++ b]) := by
  cases texts with
  | nil =>
    have hreplace : ∀ shapes more (s : Session), (Session.replaceDiagram (shapes ++ more) s).1 =
        (Session.appendShapes more (Session.replaceDiagram shapes s).1).1 := fun _ _ _ => rfl
    rw [List.nil_append, List.nil_append, load, load, loadText_append hreplace ha]
    cases loadText Session.replaceDiagram placement {} a with
    | error e => rfl
    | ok s => rfl
  | cons text texts =>
    rw [List.cons_append, List.cons_append, load, load]
    cases loadText Session.replaceDiagram placement {} text with
    | error e => rfl
    | ok s => exact appendAll_append_pair ha texts s

/-- Texts are loaded as the text that they make, if all but the last of them are finished. -/
theorem load_join {texts : List String} (h : ∀ text ∈ texts, Finished text.toList) (last : String) :
    load placement (texts ++ [last]) = load placement [String.join (texts ++ [last])] := by
  induction texts using List.reverseRecOn generalizing last with
  | nil => simp [String.join_cons]
  | append_singleton texts a ih =>
    have ha : Finished a.toList := h a (by simp)
    rw [List.append_assoc, List.singleton_append, load_append_pair ha,
      ih (fun text htext => h text (List.mem_append_left _ htext))]
    simp [String.join_append, String.join_cons]

/-- A picture behind a finished one is read as if it stood alone. So texts of which all but the last
are finished are imported as the one text that they make. -/
theorem read_append_and_import_join (placement : Placement) :
    (∀ t u : List Char, Finished t → read placement (t ++ u) =
      match read placement t with
      | .error e => .error e
      | .ok shapes =>
        match read placement u with
        | .error e => .error e
        | .ok more => .ok (shapes ++ more)) ∧
    ∀ (format : OutputFormat) (texts : List String) (last : String),
      (∀ text ∈ texts, Finished text.toList) →
      importTexts placement format (texts ++ [last]) =
        importTexts placement format [String.join (texts ++ [last])] := by
  refine ⟨fun t u ht => ht.read_append placement u, fun format texts last h => ?_⟩
  rw [importTexts, importTexts, load_join h]

/-- The first half of a picture: a comment and blanks stand behind its only statement. -/
def upperHalf : String :=
  "\\begin\x7btikzpicture\x7d\n\\draw (0,0) -- (1,0); % the base;\n  \n"

/-- The second half, with a semicolon in a label. -/
def lowerHalf : String := "\\draw node at (1,2) \x7ba; b\x7d;\n\\end\x7btikzpicture\x7d"

theorem read_append_and_import_join_halves : Finished upperHalf.toList ∧
    (read .identity (upperHalf.toList ++ lowerHalf.toList)).map List.length = .ok 2 ∧
    importTexts .identity .text [String.join ([upperHalf] ++ [lowerHalf])] =
      .ok "\\draw (0,0) -- (1,0);\n\\draw node at (1,2) \x7ba; b\x7d;\n" := by
  have hlast : (statements {} (visible upperHalf.toList)).getLast? = some " \n  ".toList := by
    decide +kernel
  have hupper : Finished upperHalf.toList := by
    refine ⟨by decide +kernel, fun w hw => List.all_eq_true.1 ?_⟩
    obtain rfl := Option.some.inj (hlast.symm.trans hw)
    decide
  have h := read_append_and_import_join .identity
  refine ⟨hupper, ?_, ?_⟩
  · rw [h.1 upperHalf.toList lowerHalf.toList hupper]
    decide +kernel
  · rw [← h.2 .text [upperHalf] lowerHalf fun text htext => List.mem_singleton.1 htext ▸ hupper]
    decide +kernel

end Draftboard.Command
