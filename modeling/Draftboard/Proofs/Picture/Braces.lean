import Draftboard.Picture.Scan
import Draftboard.Proofs.Text.Pieces

/-!
# Draftboard.Proofs.Picture.Braces

Where the scan of braces stands at a cut.

* The outermost brace is closed in one state only and by one character (`closes_iff`). So what
  `upToClosing?` takes out of a text is closed by the same brace in any other text that it is put
  into (`upToClosing?_cut`).
  What it takes out is a text with balanced braces (`upToClosing?_eq_some_iff`).
* A text is `Balanced` if splitting at semicolons goes over it and on from the start. Texts without
  semicolon, opening brace and backslash are (`balanced_of_inert`), and so is what
  `upToClosing?` takes out, with the braces around it (`balanced_braces`).
-/

namespace Draftboard.Picture

open Text

namespace BraceScan

variable {s : BraceScan} {c : Char}

/-- The outermost brace is closed outside of dollar signs, and not just after a backslash. -/
theorem closes_iff : s.closes c = true ↔ s = { depth := 1 } ∧ c = '}' := by
  constructor
  · intro h
    obtain ⟨depth, inMath, escaped⟩ := s
    rw [closes, Bool.and_eq_true, beq_iff_eq, beq_iff_eq] at h
    obtain ⟨rfl, hstep⟩ := h
    -- Every other branch of the step keeps the depth of one or adds to it.
    cases escaped with
    | true => simp [step] at hstep
    | false =>
      by_cases hd : c = '$'
      · simp [step, hd] at hstep
      · cases inMath with
        | true => simp [step, hd] at hstep
        | false =>
          by_cases ho : c = '{'
          · simp [step, ho] at hstep
          · by_cases hc : c = '}'
            · exact ⟨rfl, hc⟩
            · simp [step, hd, ho, hc] at hstep
  · rintro ⟨rfl, rfl⟩
    rfl

/-- A scan inside of braces stays there as long as the outermost one is not closed. -/
theorem depth_step_pos (hs : 0 < s.depth) (hc : s.closes c = false) : 0 < (s.step c).depth := by
  by_cases h1 : s.depth = 1
  · refine Nat.pos_of_ne_zero fun h0 => ?_
    rw [closes, h1, h0] at hc
    exact absurd hc (by decide)
  -- One character takes one off the depth at most.
  · have hle : s.depth - 1 ≤ (s.step c).depth := by
      unfold step
      grind
    omega

/-- Outside of braces most characters change nothing. -/
theorem step_of_inert (hc : c ≠ '{') (hb : c ≠ '\\') : step {} c = {} := by
  unfold step
  by_cases hd : c = '}'
  · subst hd; rfl
  · simp [hc, hd, hb]

end BraceScan

/-! ### The closing brace -/

/-- What is taken out ends at a brace, and depends on nothing after it. -/
theorem upToClosing?_cut {s : BraceScan} {text inner : List Char}
    (h : upToClosing? s text = some inner) :
    ∃ rest, text = inner ++ '}' :: rest ∧ upToClosing? s (inner ++ ['}']) = some inner := by
  induction text generalizing s inner with
  | nil => cases h
  | cons c r ih =>
    rw [upToClosing?] at h
    split at h
    · rename_i hc
      obtain ⟨rfl, rfl⟩ := BraceScan.closes_iff.1 hc
      obtain rfl : [] = inner := Option.some.inj h
      exact ⟨r, rfl, rfl⟩
    · rename_i hc
      obtain ⟨inner, hr, rfl⟩ := Option.map_eq_some_iff.1 h
      obtain ⟨rest, rfl, hinner⟩ := ih hr
      refine ⟨rest, rfl, ?_⟩
      rw [List.cons_append, upToClosing?, if_neg hc, hinner, Option.map_some]

/-- A text is taken out whole if the scan stays inside of the outermost brace and ends just
inside of it. -/
theorem upToClosing?_of_run {s : BraceScan} {text : List Char} (hs : s.depth ≠ 0)
    (hinside : ∀ before, before <+: text → (s.run before).depth ≠ 0)
    (hend : s.run text = { depth := 1 }) : upToClosing? s (text ++ ['}']) = some text := by
  induction text generalizing s with
  | nil =>
    rw [BraceScan.run_nil] at hend
    rw [hend]
    rfl
  | cons c r ih =>
    have hstep : (s.step c).depth ≠ 0 := hinside [c] ⟨r, rfl⟩
    have hc : s.closes c = false := by
      rw [BraceScan.closes, beq_eq_false_iff_ne.2 hstep, Bool.and_false]
    have hr : upToClosing? (s.step c) (r ++ ['}']) = some r := by
      refine ih hstep (fun before hb => ?_) hend
      exact hinside (c :: before) (List.cons_prefix_cons.2 ⟨rfl, hb⟩)
    rw [List.cons_append, upToClosing?, if_neg (by simp [hc]), hr, Option.map_some]

/-- A text with balanced braces, as it may stand between two braces: a scan from inside of the first
one stays inside, and is back where it was at the end. -/
structure Enclosed (s : BraceScan) (text : List Char) : Prop where
  inside : ∀ before, before <+: text → (s.run before).depth ≠ 0
  ends : s.run text = { depth := 1 }

/-- What is taken out of a text does not depend on what is put behind it. -/
theorem upToClosing?_append {s : BraceScan} {text inner : List Char}
    (h : upToClosing? s text = some inner) (rest : List Char) :
    upToClosing? s (text ++ rest) = some inner := by
  induction text generalizing s inner with
  | nil => cases h
  | cons c r ih =>
    rw [upToClosing?] at h
    rw [List.cons_append, upToClosing?]
    split
    · rename_i hc
      rwa [if_pos hc] at h
    · rename_i hc
      rw [if_neg hc] at h
      obtain ⟨inner, hr, rfl⟩ := Option.map_eq_some_iff.1 h
      rw [ih hr, Option.map_some]

theorem enclosed_of_upToClosing? {s : BraceScan} (hs : 0 < s.depth) {text inner : List Char}
    (h : upToClosing? s text = some inner) : Enclosed s inner := by
  induction text generalizing s inner with
  | nil => cases h
  | cons c r ih =>
    rw [upToClosing?] at h
    split at h
    · rename_i hc
      obtain ⟨rfl, -⟩ := BraceScan.closes_iff.1 hc
      obtain rfl : [] = inner := Option.some.inj h
      refine ⟨fun before hbefore => ?_, rfl⟩
      rw [List.prefix_nil.1 hbefore]
      decide
    · rename_i hc
      obtain ⟨inner, hr, rfl⟩ := Option.map_eq_some_iff.1 h
      have hrest := ih (BraceScan.depth_step_pos hs (Bool.eq_false_iff.2 hc)) hr
      refine ⟨fun before hbefore => ?_, hrest.ends⟩
      rcases List.prefix_cons_iff.1 hbefore with rfl | ⟨t, rfl, ht⟩
      · exact Nat.ne_of_gt hs
      · exact hrest.inside t ht

/-- The text up to the closing brace has balanced braces, and any such text is taken out whole. -/
theorem upToClosing?_eq_some_iff {s : BraceScan} (hs : 0 < s.depth) {text inner : List Char} :
    upToClosing? s text = some inner ↔
      ∃ rest, text = inner ++ '}' :: rest ∧ Enclosed s inner := by
  constructor
  · intro h
    obtain ⟨rest, htext, -⟩ := upToClosing?_cut h
    exact ⟨rest, htext, enclosed_of_upToClosing? hs h⟩
  · rintro ⟨rest, rfl, h⟩
    have hclosed := upToClosing?_append
      (upToClosing?_of_run (Nat.ne_of_gt hs) h.inside h.ends) rest
    rwa [List.append_assoc, List.singleton_append] at hclosed

/-! ### Balanced texts -/

theorem statements_ne_nil (s : BraceScan) (text : List Char) : statements s text ≠ [] := by
  cases text with
  | nil => simp [statements]
  | cons c r =>
    rw [statements]
    split
    · simp
    · exact consHead_ne_nil _ _

/-- A text that is split nowhere, and after which a scan goes on from the start. -/
def Balanced (text : List Char) : Prop :=
  ∀ rest, statements {} (text ++ rest) = appendHead text (statements {} rest)

theorem balanced_nil : Balanced [] := fun rest =>
  (appendHead_nil (statements_ne_nil {} rest)).symm

theorem Balanced.append {t u : List Char} (ht : Balanced t) (hu : Balanced u) :
    Balanced (t ++ u) := by
  intro rest
  rw [List.append_assoc, ht, hu, appendHead_appendHead]

/-- Texts without a character that means something outside of braces are balanced. -/
theorem balanced_of_inert {t : List Char} (hsemi : ';' ∉ t) (hopen : '{' ∉ t) (hesc : '\\' ∉ t) :
    Balanced t := by
  induction t with
  | nil => exact balanced_nil
  | cons c t ih =>
    obtain ⟨hsemi, hsemis⟩ := List.ne_and_not_mem_of_not_mem_cons hsemi
    obtain ⟨hopen, hopens⟩ := List.ne_and_not_mem_of_not_mem_cons hopen
    obtain ⟨hesc, hescs⟩ := List.ne_and_not_mem_of_not_mem_cons hesc
    intro rest
    rw [List.cons_append, statements, BraceScan.step_of_inert hopen.symm hesc.symm,
      if_neg fun hh => hsemi hh.1.symm, ih hsemis hopens hescs, consHead_appendHead]

/-- A backslash takes the meaning of the character after it. -/
theorem balanced_escape {c : Char} (h : c ≠ ';') : Balanced ['\\', c] := by
  intro rest
  have hstep : BraceScan.step (BraceScan.step {} '\\') c = {} := by
    show BraceScan.step { escaped := true } c = {}
    simp [BraceScan.step]
  rw [List.cons_append, List.cons_append, List.nil_append, statements, statements, hstep,
    if_neg (by decide), if_neg fun hh => h hh.1, consHead_eq_appendHead, consHead_eq_appendHead,
    appendHead_appendHead]
  rfl

/-- From inside of braces, nothing is split up to the brace that closes the outermost one. -/
theorem statements_upToClosing {s : BraceScan} {text : List Char} (hs : 0 < s.depth)
    (h : upToClosing? s (text ++ ['}']) = some text) (rest : List Char) :
    statements s (text ++ '}' :: rest) = appendHead (text ++ ['}']) (statements {} rest) := by
  induction text generalizing s with
  | nil =>
    have hc : s.closes '}' = true := by
      rw [List.nil_append, upToClosing?] at h
      split at h
      · assumption
      · cases h
    obtain ⟨rfl, -⟩ := BraceScan.closes_iff.1 hc
    exact consHead_eq_appendHead _ _
  | cons c r ih =>
    rw [List.cons_append, upToClosing?] at h
    split at h
    · cases h
    · rename_i hc
      obtain ⟨inner, hr, hinner⟩ := Option.map_eq_some_iff.1 h
      obtain ⟨-, rfl⟩ := List.cons.inj hinner
      have hpos := BraceScan.depth_step_pos hs (Bool.eq_false_iff.2 hc)
      rw [List.cons_append, statements, if_neg fun hh => Nat.ne_of_gt hpos hh.2, ih hpos hr,
        consHead_appendHead, List.cons_append]

/-- Braces around what is taken out of braces are balanced. -/
theorem balanced_braces {text : List Char}
    (h : upToClosing? { depth := 1 } (text ++ ['}']) = some text) :
    Balanced ('{' :: text ++ ['}']) := by
  intro rest
  have hopen : BraceScan.step {} '{' = { depth := 1 } := rfl
  rw [List.append_assoc, List.cons_append, List.singleton_append, statements, hopen,
    if_neg (by decide), statements_upToClosing (by decide) h, consHead_appendHead, List.cons_append]

/-- A semicolon ends a statement. -/
theorem Balanced.statements_append {t : List Char} (h : Balanced t) (rest : List Char) :
    statements {} (t ++ ';' :: rest) = t :: statements {} rest := by
  have hsemi : statements {} (';' :: rest) = [] :: statements {} rest := rfl
  rw [h, hsemi, appendHead, List.append_nil]

end Draftboard.Picture
