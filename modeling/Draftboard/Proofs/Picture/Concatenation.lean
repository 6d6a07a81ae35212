import Draftboard.Picture.Reader
import Draftboard.Proofs.Picture.Braces

/-!
# Draftboard.Proofs.Picture.Concatenation

Pictures one after another.

* A text is `Finished` if it ends with a line and nothing but blanks stands after its last
  statement. The scan of braces is then back where it started (`Finished.run_visible`): a semicolon ends a
  statement outside of all braces only, and blanks do not move the scan.
* So a text behind a finished one is cut into the lines and the statements that it has alone
  (`visibleLines_append_of_ended`, `Finished.statementTexts_append`).
* Both are read as one, shapes after shapes, and the first fault of the two is the fault
  (`Finished.read_append`).
-/

namespace Draftboard

open Text

/-! ### Lines -/

namespace Text

theorem lines_ne_nil {s : List Char} (h : s ≠ []) : lines s ≠ [] := by
  fun_cases lines s with
  | case1 => exact absurd rfl h
  | case2 r | case3 r => exact List.cons_ne_nil _ _
  | case4 c r => exact consHead_ne_nil _ _

theorem consHead_append {c : Char} {ss : List (List Char)} (h : ss ≠ []) (ts : List (List Char)) :
    consHead c (ss ++ ts) = consHead c ss ++ ts := by
  cases ss with
  | nil => exact absurd rfl h
  | cons s ss => rfl

/-- A text whose first character ends no line is ended further on. -/
theorem ended_of_cons {c : Char} {r : List Char} (h : (c :: r).getLast? = some '\n') :
    r = [] ∨ r.getLast? = some '\n' := by
  cases r with
  | nil => exact .inl rfl
  | cons d r => exact .inr (by simpa using h)

/-- No line goes on from a text that ends with a line feed. -/
theorem lines_append_of_ended {s : List Char} (h : s = [] ∨ s.getLast? = some '\n')
    (t : List Char) : lines (s ++ t) = lines s ++ lines t := by
  fun_induction lines s with
  | case1 => rfl
  | case2 r ih =>
    have hr := ended_of_cons (c := '\n') (h.resolve_left (List.cons_ne_nil _ _))
    rw [List.cons_append, List.cons_append, lines, ih hr, List.cons_append]
  | case3 r ih =>
    have hr := ended_of_cons (h.resolve_left (List.cons_ne_nil _ _))
    rw [List.cons_append, lines, ih hr, List.cons_append]
  | case4 c r hcr hlf ih =>
    have hlast := h.resolve_left (List.cons_ne_nil _ _)
    -- The line feed at the end is not this character.
    obtain ⟨d, r, rfl⟩ : ∃ d r', r = d :: r' := by
      refine List.exists_cons_of_ne_nil ?_
      rintro rfl
      exact hlf (by simpa using hlast)
    have hhead : c = '\r' → (d :: r ++ t).head? ≠ some '\n' := by
      rintro rfl hd
      exact hcr r rfl (by rw [Option.some.inj hd])
    rw [List.cons_append, lines_cons hlf hhead, ih (ended_of_cons hlast),
      consHead_append (lines_ne_nil (List.cons_ne_nil d r))]

end Text

namespace Picture

theorem visibleLines_append_of_ended {t : List Char} (h : t = [] ∨ t.getLast? = some '\n')
    (u : List Char) : visibleLines (t ++ u) = visibleLines t ++ visibleLines u := by
  rw [visibleLines, lines_append_of_ended h, List.map_append, List.filter_append]
  rfl

/-! ### The scan at the end of a text -/

namespace BraceScan

variable {s : BraceScan}

/-- Dollar signs have a meaning inside of braces only. -/
def MathInside (s : BraceScan) : Prop := s.inMath = true → 0 < s.depth

theorem mathInside_start : MathInside {} := fun h => nomatch h

theorem MathInside.step (h : s.MathInside) (c : Char) : (s.step c).MathInside := by
  unfold MathInside at *
  unfold BraceScan.step
  grind

theorem MathInside.run (h : s.MathInside) (t : List Char) : (s.run t).MathInside := by
  induction t generalizing s with
  | nil => exact h
  | cons c t ih => exact ih (h.step c)

/-- Outside of all braces only a backslash leaves something to the next character. -/
theorem MathInside.eq_start (h : s.MathInside) (hdepth : s.depth = 0) (hescaped : s.escaped = false) :
    s = {} := by
  obtain ⟨depth, inMath, escaped⟩ := s
  obtain rfl : depth = 0 := hdepth
  obtain rfl : escaped = false := hescaped
  cases inMath with
  | false => rfl
  | true => exact absurd (h rfl) (Nat.lt_irrefl 0)

/-- A semicolon outside of all braces leaves the scan where it started. -/
theorem step_semicolon (h : s.MathInside) (hdepth : (s.step ';').depth = 0) : s.step ';' = {} :=
  (h.step ';').eq_start hdepth (by simp [BraceScan.step])

/-- Blanks do not move a scan from its start. -/
theorem run_of_blank {t : List Char} (h : ∀ c ∈ t, isBlank c = true) : run {} t = {} := by
  induction t with
  | nil => rfl
  | cons c t ih =>
    obtain ⟨hc, ht⟩ := List.forall_mem_cons.1 h
    rw [run_cons,
      step_of_inert (by rintro rfl; revert hc; decide) (by rintro rfl; revert hc; decide),
      ih ht]

end BraceScan

/-- What is put behind a text goes to its last statement, and the scan goes on. The last statement
starts with the text, or after a semicolon with a scan of its own. -/
theorem exists_statements_append {s : BraceScan} (hs : s.MathInside) (t : List Char) :
    ∃ ws w, statements s t = ws ++ [w] ∧ s.run t = (if ws = [] then s else {}).run w ∧
      ∀ u, statements s (t ++ u) = ws ++ appendHead w (statements (s.run t) u) := by
  induction t generalizing s with
  | nil => exact ⟨[], [], rfl, rfl, fun u => (appendHead_nil (statements_ne_nil s u)).symm⟩
  | cons c t ih =>
    obtain ⟨ws, w, ht, hrun, hu⟩ := ih (hs.step c)
    by_cases hc : c = ';' ∧ (s.step c).depth = 0
    -- A statement ends here, so a new piece comes in front.
    · refine ⟨[] :: ws, w, ?_, ?_, fun u => ?_⟩
      · rw [statements, if_pos hc, ht, List.cons_append]
      · obtain ⟨rfl, hdepth⟩ := hc
        rw [BraceScan.run_cons, hrun, BraceScan.step_semicolon hs hdepth, ite_self,
          if_neg (List.cons_ne_nil _ _)]
      · rw [List.cons_append, statements, if_pos hc, hu, BraceScan.run_cons, List.cons_append]
    -- The character goes to the first piece, which may be the last one too.
    · cases ws with
      | nil =>
        refine ⟨[], c :: w, ?_, hrun, fun u => ?_⟩
        · rw [statements, if_neg hc, ht]; rfl
        · rw [List.cons_append, statements, if_neg hc, hu, BraceScan.run_cons, List.nil_append,
            consHead_appendHead, List.nil_append]
      | cons v vs =>
        refine ⟨(c :: v) :: vs, w, ?_, hrun, fun u => ?_⟩
        · rw [statements, if_neg hc, ht]; rfl
        · rw [List.cons_append, statements, if_neg hc, hu, BraceScan.run_cons]; rfl

/-! ### Statements -/

/-- The statements of a text in which all is visible, as `statementTexts` has them. -/
def trimmedStatements (x : List Char) : List (List Char) :=
  ((statements {} x).map trim).filter (· ≠ [])

theorem trimmedStatements_nil : trimmedStatements [] = [] := rfl

/-- Blanks in front of the first statement do not count. -/
theorem map_trim_appendHead {w : List Char} (hw : ∀ c ∈ w, isBlank c = true)
    {ws : List (List Char)} (hws : ws ≠ []) : (appendHead w ws).map trim = ws.map trim := by
  obtain ⟨v, vs, rfl⟩ := List.exists_cons_of_ne_nil hws
  rw [appendHead, List.map_cons, List.map_cons, trim_append_of_blanks hw]

/-- A line break is one of these blanks. -/
theorem trimmedStatements_newline (y : List Char) :
    trimmedStatements ('\n' :: y) = trimmedStatements y := by
  have hblank : ∀ c ∈ ['\n'], isBlank c = true := List.all_eq_true.1 (by decide)
  have hstatements : statements {} ('\n' :: y) = appendHead ['\n'] (statements {} y) :=
    consHead_eq_appendHead _ _
  rw [trimmedStatements, hstatements, map_trim_appendHead hblank (statements_ne_nil _ _),
    trimmedStatements]

/-- Behind a text that leaves blanks only, a text has the statements that it has alone. -/
theorem trimmedStatements_append {x : List Char}
    (hx : ∀ w ∈ (statements {} x).getLast?, ∀ c ∈ w, isBlank c = true) (y : List Char) :
    trimmedStatements (x ++ y) = trimmedStatements x ++ trimmedStatements y := by
  obtain ⟨ws, w, hws, hrun, happend⟩ := exists_statements_append BraceScan.mathInside_start x
  have hw : ∀ c ∈ w, isBlank c = true := hx w (by simp [hws])
  rw [ite_self, BraceScan.run_of_blank hw] at hrun
  have htrim : trim w = [] := by
    have h := trim_append_of_blanks hw []
    rwa [List.append_nil] at h
  rw [trimmedStatements, happend, hrun, List.map_append, List.filter_append,
    map_trim_appendHead hw (statements_ne_nil _ _), trimmedStatements, trimmedStatements, hws]
  simp [htrim]

/-! ### Finished texts -/

/-- A text in which every line and every statement is finished. -/
structure Finished (t : List Char) : Prop where
  ends : t = [] ∨ t.getLast? = some '\n'
  /-- Nothing but blanks stands after the last statement. -/
  rest : ∀ w ∈ (statements {} (visible t)).getLast?, ∀ c ∈ w, isBlank c = true

/-- A text behind a finished one has the statements that it has alone. -/
theorem Finished.statementTexts_append {t : List Char} (h : Finished t) (u : List Char) :
    statementTexts (t ++ u) = statementTexts t ++ statementTexts u := by
  show trimmedStatements (visible (t ++ u)) =
    trimmedStatements (visible t) ++ trimmedStatements (visible u)
  by_cases ht : visibleLines t = []
  · simp [visible, visibleLines_append_of_ended h.ends, ht, joinWith, trimmedStatements_nil]
  by_cases hu : visibleLines u = []
  · simp [visible, visibleLines_append_of_ended h.ends, hu, joinWith, trimmedStatements_nil]
  -- A line break stands between what is visible of both.
  have hvisible : visible (t ++ u) = visible t ++ '\n' :: visible u := by
    rw [visible, visibleLines_append_of_ended h.ends, joinWith_append ht hu, List.append_assoc]
    rfl
  rw [hvisible, trimmedStatements_append h.rest, trimmedStatements_newline]

/-- Texts are read one after another, up to the first fault. -/
theorem readEach_append {β : Type} (reader : List Char → Except ReadError β)
    (ss ts : List (List Char)) : readEach reader (ss ++ ts) =
      match readEach reader ss with
      | .error e => .error e
      | .ok bs =>
        match readEach reader ts with
        | .error e => .error e
        | .ok cs => .ok (bs ++ cs) := by
  induction ss with
  | nil => cases h : readEach reader ts <;> simp [readEach, h]
  | cons s ss ih =>
    rw [List.cons_append, readEach, readEach, ih]
    cases reader s with
    | error e => rfl
    | ok b =>
      cases readEach reader ss with
      | error e => rfl
      | ok bs => cases readEach reader ts <;> rfl

/-- A text behind a finished one is read as if it stood alone. -/
theorem Finished.read_append {t : List Char} (h : Finished t) (placement : Placement)
    (u : List Char) : read placement (t ++ u) =
      match read placement t with
      | .error e => .error e
      | .ok shapes =>
        match read placement u with
        | .error e => .error e
        | .ok more => .ok (shapes ++ more) := by
  rw [read, h.statementTexts_append, readEach_append]
  unfold read
  cases readEach placement.readStatement (statementTexts t) with
  | error e => rfl
  | ok all => cases readEach placement.readStatement (statementTexts u) <;> rfl

end Picture

end Draftboard
