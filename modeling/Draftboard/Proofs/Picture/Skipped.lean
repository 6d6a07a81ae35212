import Mathlib.Data.List.Basic
import Mathlib.Data.List.Induction
import Draftboard.Picture.Writer
import Draftboard.Proofs.Picture.Concatenation
import Draftboard.Proofs.Picture.Visible

/-!
# Draftboard.Proofs.Picture.Skipped

What may be put into a picture text without a difference.

* A percent sign starts a comment unless the backslashes right before it are odd in number
  (`beforeComment_eq_self_iff`). So a comment behind a line without one is cut off again, if the
  line does not end in an odd number of backslashes (`beforeComment_append_comment`).
* A line that opens or closes a picture is skipped wherever it stands, and takes nothing from the lines
  around it, not even inside of a label.
* What counts of a text is in its visible lines, and blanks behind the last of them do not count. So
  putting a text into the picture environment changes nothing either, although a last line that is
  not ended may lose a carriage return there (`statementTexts_wrapped`).
-/

namespace Draftboard

open Text

/-! ### Lines -/

namespace Text

/-- A line without the carriage return that it may end with. -/
def withoutReturn (s : List Char) : List Char :=
  if s.getLast? = some '\r' then s.dropLast else s

theorem withoutReturn_append_cons {c : Char} (hc : c ≠ '\r') (s t : List Char) :
    withoutReturn (s ++ c :: t) = s ++ c :: withoutReturn t := by
  unfold withoutReturn
  rw [List.getLast?_append_cons]
  cases t with
  | nil => rw [if_neg (by simpa using hc), if_neg (by simp)]
  | cons d t =>
    rw [List.getLast?_cons_cons]
    split
    · rw [List.dropLast_append_of_ne_nil (List.cons_ne_nil _ _), List.dropLast_cons_cons]
    · rfl

theorem lines_append_return {s : List Char} (h : '\n' ∉ s) (r : List Char) :
    lines (s ++ '\r' :: '\n' :: r) = s :: lines r := by
  induction s with
  | nil => rfl
  | cons c s ih =>
    obtain ⟨hc, hs⟩ := List.ne_and_not_mem_of_not_mem_cons h
    have hhead : c = '\r' → (s ++ '\r' :: '\n' :: r).head? ≠ some '\n' := by
      rintro rfl
      cases s with
      | nil => exact fun hd => absurd (Option.some.inj hd) (by decide)
      | cons d s => exact fun hd => hs (by rw [Option.some.inj hd]; exact List.mem_cons_self)
    rw [List.cons_append, lines_cons hc.symm hhead, ih hs, consHead]

/-- A line feed ends a line, and a carriage return before it goes with it. -/
theorem lines_append_lineFeed {s : List Char} (h : '\n' ∉ s) (r : List Char) :
    lines (s ++ '\n' :: r) = withoutReturn s :: lines r := by
  unfold withoutReturn
  split
  · rename_i hr
    obtain ⟨t, rfl⟩ := List.getLast?_eq_some_iff.1 hr
    rw [List.append_assoc, List.singleton_append, List.dropLast_concat]
    exact lines_append_return (fun ht => h (List.mem_append_left _ ht)) r
  · rename_i hr
    exact lines_append h hr r

/-- A last line without an end. -/
theorem lines_of_not_mem {s : List Char} (hne : s ≠ []) (h : '\n' ∉ s) : lines s = [s] := by
  induction s with
  | nil => exact absurd rfl hne
  | cons c s ih =>
    obtain ⟨hc, hs⟩ := List.ne_and_not_mem_of_not_mem_cons h
    have hhead : c = '\r' → s.head? ≠ some '\n' := fun _ hd => hs (List.mem_of_mem_head? hd)
    rw [lines_cons hc.symm hhead]
    by_cases hnil : s = []
    · subst hnil
      rfl
    · rw [ih hnil hs]
      rfl

/-- A text is a number of ended lines and then a line without an end, which may be empty. -/
theorem exists_last_line (t : List Char) :
    ∃ a s, t = a ++ s ∧ (a = [] ∨ a.getLast? = some '\n') ∧ '\n' ∉ s := by
  induction t using List.reverseRecOn with
  | nil => exact ⟨[], [], rfl, .inl rfl, List.not_mem_nil⟩
  | append_singleton t c ih =>
    by_cases hc : c = '\n'
    · subst hc
      exact ⟨t ++ ['\n'], [], (List.append_nil _).symm, .inr (List.getLast?_concat ..),
        List.not_mem_nil⟩
    · obtain ⟨a, s, rfl, ha, hs⟩ := ih
      refine ⟨a, s ++ [c], List.append_assoc .., ha, fun h => ?_⟩
      rcases List.mem_append.1 h with h | h
      · exact hs h
      · exact hc (List.mem_singleton.1 h).symm

/-- A line of a text, with what stands before it, the line break that ends it, if one does, and what
follows. -/
structure LineAt (before line lineBreak after : List Char) : Prop where
  starts : before = [] ∨ before.getLast? = some '\n'
  unbroken : '\n' ∉ line
  ends : lineBreak = ['\n'] ∧ line.getLast? ≠ some '\r' ∨ lineBreak = ['\r', '\n'] ∨
    lineBreak = [] ∧ line ≠ [] ∧ after = []

variable {before line lineBreak after : List Char}

theorem LineAt.lines_eq (h : LineAt before line lineBreak after) :
    lines (before ++ line ++ lineBreak ++ after) = lines before ++ line :: lines after := by
  have htail : lines (line ++ lineBreak ++ after) = line :: lines after := by
    rcases h.ends with ⟨rfl, hcr⟩ | rfl | ⟨rfl, hne, rfl⟩
    · rw [List.append_assoc, List.singleton_append, lines_append h.unbroken hcr]
    · rw [List.append_assoc]
      exact lines_append_return h.unbroken after
    · rw [List.append_nil, List.append_nil, lines_of_not_mem hne h.unbroken]
      rfl
  rw [List.append_assoc, List.append_assoc, lines_append_of_ended h.starts, ← List.append_assoc,
    htail]

/-- A line that goes on after a percent sign has what it goes on with, but for a carriage return at
the end. -/
theorem LineAt.lines_append_comment (h : LineAt before line lineBreak after) {comment : List Char}
    (hcomment : '\n' ∉ comment) :
    ∃ rest, lines (before ++ (line ++ '%' :: comment) ++ lineBreak ++ after) =
      lines before ++ (line ++ '%' :: rest) :: lines after := by
  have hunbroken : '\n' ∉ line ++ '%' :: comment := by
    simp [h.unbroken, hcomment]
  have htail : ∃ rest, lines (line ++ '%' :: comment ++ lineBreak ++ after) =
      (line ++ '%' :: rest) :: lines after := by
    rcases h.ends with ⟨rfl, -⟩ | rfl | ⟨rfl, -, rfl⟩
    · refine ⟨withoutReturn comment, ?_⟩
      rw [List.append_assoc _ ['\n'], List.singleton_append, lines_append_lineFeed hunbroken,
        withoutReturn_append_cons (by decide)]
    · refine ⟨comment, ?_⟩
      rw [List.append_assoc _ ['\r', '\n']]
      exact lines_append_return hunbroken after
    · refine ⟨comment, ?_⟩
      rw [List.append_nil, List.append_nil, lines_of_not_mem (by simp) hunbroken]
      rfl
  obtain ⟨rest, hrest⟩ := htail
  refine ⟨rest, ?_⟩
  rw [List.append_assoc, List.append_assoc, lines_append_of_ended h.starts, ← List.append_assoc,
    hrest]

/-- How many backslashes a text ends with. -/
def backslashes (s : List Char) : Nat := (s.reverse.takeWhile (· == '\\')).length

theorem backslashes_concat_backslash (s : List Char) :
    backslashes (s ++ ['\\']) = backslashes s + 1 := by
  rw [backslashes, List.reverse_append]
  rfl

theorem backslashes_concat_of_ne {c : Char} (hc : c ≠ '\\') (s : List Char) :
    backslashes (s ++ [c]) = 0 := by
  rw [backslashes, List.reverse_append, List.reverse_singleton, List.singleton_append,
    List.takeWhile_cons_of_neg (by simpa using hc), List.length_nil]

end Text

namespace Picture

/-! ### Comments -/

/-- Whether a backslash takes the meaning from the character behind a text; `escaped` says whether
one stands before it. -/
def escapesNext (escaped : Bool) (s : List Char) : Bool :=
  s.foldl (fun e c => c == '\\' && !e) escaped

theorem escapesNext_concat (e : Bool) (s : List Char) (c : Char) :
    escapesNext e (s ++ [c]) = (c == '\\' && !escapesNext e s) := List.foldl_append ..

/-- Every second of the backslashes at the end of a text has a meaning. -/
theorem escapesNext_eq_true_iff (s : List Char) :
    escapesNext false s = true ↔ backslashes s % 2 = 1 := by
  induction s using List.reverseRecOn with
  | nil => exact iff_of_false Bool.false_ne_true (by decide)
  | append_singleton s c ih =>
    rw [escapesNext_concat]
    by_cases hc : c = '\\'
    · subst hc
      rw [backslashes_concat_backslash, beq_self_eq_true, Bool.true_and, Bool.not_eq_true', ← Bool.not_eq_true, ih]
      omega
    · rw [backslashes_concat_of_ne hc]
      exact iff_of_false (by simp [hc]) (by decide)

/-- A line without a comment: an odd number of backslashes stands right before each percent sign. -/
def Uncommented (line : List Char) : Prop :=
  ∀ s t, line = s ++ '%' :: t → backslashes s % 2 = 1

/-- A text is left as it is if each of its percent signs is escaped. -/
theorem beforeComment_eq_self_iff_escapesNext (e : Bool) (line : List Char) :
    beforeComment e line = line ↔ ∀ s t, line = s ++ '%' :: t → escapesNext e s = true := by
  induction line generalizing e with
  | nil => simp [beforeComment]
  | cons c r ih =>
    rw [beforeComment_cons_eq_iff, ih]
    constructor
    · rintro ⟨hc, hr⟩ s t hst
      cases s with
      | nil =>
        obtain ⟨rfl, -⟩ := List.cons.inj hst
        exact Bool.not_eq_false _ ▸ fun he => hc ⟨rfl, he⟩
      | cons d s =>
        obtain ⟨rfl, rfl⟩ := List.cons.inj hst
        exact hr s t rfl
    · intro h
      refine ⟨?_, fun s t hst => h (c :: s) t (by rw [hst]; rfl)⟩
      rintro ⟨rfl, rfl⟩
      exact absurd (h [] r rfl) Bool.false_ne_true

theorem beforeComment_eq_self_iff (line : List Char) :
    beforeComment false line = line ↔ Uncommented line := by
  rw [beforeComment_eq_self_iff_escapesNext]
  exact forall_congr' fun s => forall_congr' fun t => imp_congr_right fun _ =>
    escapesNext_eq_true_iff s

theorem beforeComment_append {e : Bool} {s : List Char} (h : beforeComment e s = s)
    (t : List Char) : beforeComment e (s ++ t) = s ++ beforeComment (escapesNext e s) t := by
  induction s generalizing e with
  | nil => rfl
  | cons c r ih =>
    obtain ⟨hc, hr⟩ := beforeComment_cons_eq_iff.1 h
    rw [List.cons_append, beforeComment, if_neg hc, ih hr]
    rfl

/-- A comment behind a line without one is cut off again. -/
theorem beforeComment_append_comment {line : List Char} (h : Uncommented line)
    (hlast : backslashes line % 2 = 0) (comment : List Char) :
    beforeComment false (line ++ '%' :: comment) = line := by
  have hescaped : escapesNext false line = false := by
    rw [← Bool.not_eq_true, escapesNext_eq_true_iff, hlast]
    decide
  rw [beforeComment_append ((beforeComment_eq_self_iff line).2 h), hescaped, beforeComment,
    if_pos ⟨rfl, rfl⟩, List.append_nil]

/-- Behind a line without a comment that does not end in an odd number of backslashes, a comment
leaves what is visible of the text. -/
theorem visible_append_comment {before line lineBreak after comment : List Char}
    (h : LineAt before line lineBreak after) (hline : Uncommented line)
    (hlast : backslashes line % 2 = 0) (hcomment : '\n' ∉ comment) :
    visible (before ++ (line ++ '%' :: comment) ++ lineBreak ++ after) =
      visible (before ++ line ++ lineBreak ++ after) := by
  obtain ⟨rest, hrest⟩ := h.lines_append_comment hcomment
  rw [visible, visible, visibleLines, visibleLines, hrest, h.lines_eq, List.map_append,
    List.map_append, List.map_cons, List.map_cons, beforeComment_append_comment hline hlast,
    (beforeComment_eq_self_iff line).2 hline]

/-! ### Environment lines -/

/-- A carriage return at the end makes no environment line. -/
theorem isEnvironmentLine_concat_return (s : List Char) :
    isEnvironmentLine (s ++ ['\r']) = isEnvironmentLine s := by
  rw [Bool.eq_iff_iff]
  refine ⟨fun h => ?_, fun h => isEnvironmentLine_append h _⟩
  rw [isEnvironmentLine_iff] at h ⊢
  by_cases hnil : trimStart s = []
  · have hblank : trimStart (s ++ ['\r']) = [] := by
      unfold trimStart at hnil ⊢
      rw [List.dropWhile_append, hnil]
      rfl
    rw [hblank] at h
    exact absurd h (by decide)
  · rw [trimStart_append hnil] at h
    exact h.imp (prefix_of_prefix_append_singleton (by decide))
      (prefix_of_prefix_append_singleton (by decide))

theorem isEnvironmentLine_withoutReturn (s : List Char) :
    isEnvironmentLine (withoutReturn s) = isEnvironmentLine s := by
  unfold withoutReturn
  split
  · rename_i hr
    obtain ⟨t, rfl⟩ := List.getLast?_eq_some_iff.1 hr
    rw [List.dropLast_concat, isEnvironmentLine_concat_return]
  · rfl

/-- The text that makes an environment line: blanks and one of the two commands. -/
theorem isEnvironmentLine_iff_exists {line : List Char} :
    isEnvironmentLine line = true ↔ ∃ blanks command rest, (∀ c ∈ blanks, isBlank c = true) ∧
      (command = opening ∨ command = closing) ∧ line = blanks ++ command ++ rest := by
  rw [isEnvironmentLine_iff]
  constructor
  · have hline : line = line.takeWhile isBlank ++ trimStart line :=
      List.takeWhile_append_dropWhile.symm
    have hblanks : ∀ c ∈ line.takeWhile isBlank, isBlank c = true :=
      List.all_eq_true.1 List.all_takeWhile
    rintro (⟨rest, hrest⟩ | ⟨rest, hrest⟩)
    · exact ⟨_, opening, rest, hblanks, .inl rfl, by rw [List.append_assoc, hrest, ← hline]⟩
    · exact ⟨_, closing, rest, hblanks, .inr rfl, by rw [List.append_assoc, hrest, ← hline]⟩
  · rintro ⟨blanks, command, rest, hblanks, hcommand, rfl⟩
    have htrim : trimStart (blanks ++ command ++ rest) = command ++ rest := by
      rw [List.append_assoc, trimStart, List.dropWhile_append_of_pos hblanks]
      rcases hcommand with rfl | rfl <;> rfl
    rw [htrim]
    rcases hcommand with rfl | rfl
    · exact .inl (List.prefix_append _ _)
    · exact .inr (List.prefix_append _ _)

/-- A comment starts behind what makes an environment line. -/
theorem isEnvironmentLine_beforeComment {line : List Char} (h : isEnvironmentLine line = true) :
    isEnvironmentLine (beforeComment false line) = true := by
  obtain ⟨blanks, command, rest, hblanks, hcommand, rfl⟩ := isEnvironmentLine_iff_exists.1 h
  have hpercent : '%' ∉ blanks ++ command := by
    intro hmem
    rcases List.mem_append.1 hmem with hmem | hmem
    · exact absurd (hblanks '%' hmem) (by decide)
    · rcases hcommand with rfl | rfl <;> exact absurd hmem (by decide)
  rw [beforeComment_append (beforeComment_of_not_mem hpercent false)]
  exact isEnvironmentLine_iff_exists.2 ⟨blanks, command, _, hblanks, hcommand, rfl⟩

/-- An environment line of a text is not visible. -/
theorem visibleLines_environmentLine {line : List Char} (hline : '\n' ∉ line)
    (h : isEnvironmentLine line = true) (after : List Char) :
    visibleLines (line ++ '\n' :: after) = visibleLines after := by
  have hskipped : isEnvironmentLine (beforeComment false (withoutReturn line)) = true :=
    isEnvironmentLine_beforeComment (isEnvironmentLine_withoutReturn line ▸ h)
  rw [visibleLines, lines_append_lineFeed hline, List.map_cons,
    List.filter_cons_of_neg (by rw [hskipped]; decide), visibleLines]

/-- An environment line between two lines leaves what is visible of the text. -/
theorem visible_insert_environmentLine {before : List Char}
    (hbefore : before = [] ∨ before.getLast? = some '\n') {line : List Char} (hline : '\n' ∉ line)
    (h : isEnvironmentLine line = true) (after : List Char) :
    visible (before ++ line ++ '\n' :: after) = visible (before ++ after) := by
  rw [visible, visible, List.append_assoc, visibleLines_append_of_ended hbefore,
    visibleLines_append_of_ended hbefore, visibleLines_environmentLine hline h]

/-! ### The picture environment -/

/-- A blank behind the last statement does not count. -/
theorem trimmedStatements_concat {c : Char} (hc : isBlank c = true) (x : List Char) :
    trimmedStatements (x ++ [c]) = trimmedStatements x := by
  obtain ⟨ws, w, hws, -, happend⟩ := exists_statements_append BraceScan.mathInside_start x
  have hsemicolon : c ≠ ';' := by
    rintro rfl
    exact absurd hc (by decide)
  have hlast : statements (BraceScan.run {} x) [c] = [[c]] := by
    rw [statements, if_neg fun h => hsemicolon h.1]
    rfl
  rw [trimmedStatements, trimmedStatements, happend, hlast, hws, appendHead, List.map_append,
    List.map_append, List.map_singleton, List.map_singleton, trim_append_of_blank hc]

/-- A carriage return at the end of a line goes with a comment, or it stays. -/
theorem beforeComment_concat_return (e : Bool) (s : List Char) :
    beforeComment e (s ++ ['\r']) = beforeComment e s ∨
      beforeComment e (s ++ ['\r']) = beforeComment e s ++ ['\r'] := by
  induction s generalizing e with
  | nil => exact .inr rfl
  | cons c s ih =>
    rw [List.cons_append, beforeComment, beforeComment]
    split
    · exact .inl rfl
    · exact (ih _).imp (congrArg _) (congrArg _)

/-- A line break at the end of a last line takes a carriage return off it at most. -/
theorem visibleLines_concat_lineFeed {s : List Char} (hne : s ≠ []) (hs : '\n' ∉ s) :
    visibleLines (s ++ ['\n']) = visibleLines s ∨
      ∃ v, visibleLines (s ++ ['\n']) = [v] ∧ visibleLines s = [v ++ ['\r']] := by
  have hended : visibleLines (s ++ ['\n']) =
      [beforeComment false (withoutReturn s)].filter fun line => !isEnvironmentLine line := by
    rw [visibleLines, lines_append_lineFeed hs]
    rfl
  have hopen : visibleLines s =
      [beforeComment false s].filter fun line => !isEnvironmentLine line := by
    rw [visibleLines, lines_of_not_mem hne hs]
    rfl
  rw [hended, hopen]
  by_cases hr : s.getLast? = some '\r'
  · obtain ⟨t, rfl⟩ := List.getLast?_eq_some_iff.1 hr
    rw [withoutReturn, if_pos hr, List.dropLast_concat]
    rcases beforeComment_concat_return false t with hcut | hkept
    · exact .inl (by rw [hcut])
    · rw [hkept]
      cases henv : isEnvironmentLine (beforeComment false t) with
      | true =>
        rw [List.filter_cons_of_neg (by rw [henv]; decide),
          List.filter_cons_of_neg (by rw [isEnvironmentLine_concat_return, henv]; decide)]
        exact .inl rfl
      | false =>
        rw [List.filter_cons_of_pos (by rw [henv]; decide),
          List.filter_cons_of_pos (by rw [isEnvironmentLine_concat_return, henv]; decide)]
        exact .inr ⟨_, rfl, rfl⟩
  · rw [withoutReturn, if_neg hr]
    exact .inl rfl

theorem joinWith_concat_append (sep : List Char) (ss : List (List Char)) (s t : List Char) :
    joinWith sep (ss ++ [s ++ t]) = joinWith sep (ss ++ [s]) ++ t := by
  by_cases hss : ss = []
  · subst hss
    rfl
  · rw [joinWith_append hss (List.cons_ne_nil _ _), joinWith_append hss (List.cons_ne_nil _ _),
      List.append_assoc _ (joinWith sep [s])]
    rfl

/-- The statements are the same with a line break at the end of the last line. -/
theorem statementTexts_concat_lineFeed {text : List Char} (hne : text ≠ [])
    (hend : text.getLast? ≠ some '\n') : statementTexts (text ++ ['\n']) = statementTexts text := by
  show trimmedStatements (visible (text ++ ['\n'])) = trimmedStatements (visible text)
  obtain ⟨a, s, rfl, ha, hs⟩ := exists_last_line text
  have hsne : s ≠ [] := by
    rintro rfl
    rw [List.append_nil] at hne hend
    exact ha.elim hne hend
  rw [visible, visible, List.append_assoc, visibleLines_append_of_ended ha,
    visibleLines_append_of_ended ha]
  rcases visibleLines_concat_lineFeed hsne hs with hsame | ⟨v, hended, hopen⟩
  · rw [hsame]
  · rw [hended, hopen, joinWith_concat_append, trimmedStatements_concat (by decide)]

/-- A text has the same statements inside of the picture environment. -/
theorem statementTexts_wrapped (text : List Char) :
    statementTexts (wrapped text) = statementTexts text := by
  -- The two environment lines stand around a text that is empty or ended.
  have hlines : ∀ inner : List Char, (inner = [] ∨ inner.getLast? = some '\n') →
      visible ("\\begin\x7btikzpicture\x7d\n".toList ++ inner ++
        "\\end\x7btikzpicture\x7d\n".toList) = visible inner := by
    intro inner hinner
    have hfirst := @visible_insert_environmentLine [] (.inl rfl) opening (by decide) (by decide)
      (inner ++ "\\end\x7btikzpicture\x7d\n".toList)
    have hlast := @visible_insert_environmentLine inner hinner closing (by decide) (by decide) []
    rw [List.append_nil, List.append_assoc] at hlast
    rw [← hlast]
    exact hfirst
  show trimmedStatements (visible (wrapped text)) = trimmedStatements (visible text)
  unfold wrapped
  split
  · rename_i hended
    rw [List.append_nil, hlines text hended]
  · rename_i hopen
    rw [not_or] at hopen
    rw [List.append_assoc _ text, hlines _ (.inr (List.getLast?_concat ..))]
    exact statementTexts_concat_lineFeed hopen.1 hopen.2

/-! ### Reading -/

/-- What is read depends on the visible text alone. -/
theorem read_congr {text other : List Char} (h : visible text = visible other)
    (placement : Placement) : read placement text = read placement other := by
  rw [read, read, statementTexts, statementTexts, h]

/-- Reading, faults included, takes no notice of the picture environment around a text, of an
environment line between two lines, wherever it stands, and of a comment behind a line without one that
does not end in an odd number of backslashes. -/
theorem read_skips (placement : Placement) :
    (∀ text, read placement (wrapped text) = read placement text) ∧
    (∀ before line after, (before = [] ∨ before.getLast? = some '\n') → '\n' ∉ line →
      isEnvironmentLine line = true →
      read placement (before ++ line ++ '\n' :: after) = read placement (before ++ after)) ∧
    ∀ before line lineBreak after comment, LineAt before line lineBreak after →
      Uncommented line → backslashes line % 2 = 0 → '\n' ∉ comment →
      read placement (before ++ (line ++ '%' :: comment) ++ lineBreak ++ after) =
        read placement (before ++ line ++ lineBreak ++ after) := by
  refine ⟨fun text => ?_, fun before line after hbefore hline h => ?_, ?_⟩
  · rw [read, read, statementTexts_wrapped]
  · exact read_congr (visible_insert_environmentLine hbefore hline h after) placement
  · intro before line lineBreak after comment h hline hlast hcomment
    exact read_congr (visible_append_comment h hline hlast hcomment) placement

/-- The start of a label, with an escaped percent sign and an escaped backslash at the end. -/
def labelStart : List Char := "\\draw node at (1,2) \x7b5\\% off\\\\".toList

/-- The rest of the label. -/
def labelRest : List Char := "and more\x7d;\n".toList

/-- A comment and an environment line inside of the label leave it as it is, and so does an environment
around it. -/
theorem read_skips_insideLabel :
    let comment := " no \x7b brace".toList
    let line := "  \\end\x7btikzpicture\x7d % none\r".toList
    LineAt [] labelStart ['\r', '\n'] (line ++ '\n' :: labelRest) ∧ Uncommented labelStart ∧
      backslashes labelStart % 2 = 0 ∧ isEnvironmentLine line = true ∧
      (read .identity (wrapped ([] ++ (labelStart ++ '%' :: comment) ++ ['\r', '\n'] ++
        (line ++ '\n' :: labelRest)))).map write =
      .ok (labelStart ++ '\n' :: labelRest) := by
  intro comment line
  have hat : LineAt [] labelStart ['\r', '\n'] (line ++ '\n' :: labelRest) :=
    ⟨.inl rfl, by decide, .inr (.inl rfl)⟩
  have huncommented : Uncommented labelStart := (beforeComment_eq_self_iff _).1 (by decide)
  have hlast : backslashes labelStart % 2 = 0 := by decide
  have henvironment : isEnvironmentLine line = true := by decide
  obtain ⟨hwrapped, hinsert, happend⟩ := read_skips .identity
  refine ⟨hat, huncommented, hlast, henvironment, ?_⟩
  have hwithout := hinsert ([] ++ labelStart ++ ['\r', '\n']) line labelRest (.inr rfl) (by decide)
    henvironment
  rw [List.append_assoc _ line] at hwithout
  rw [hwrapped, happend _ _ _ _ comment hat huncommented hlast (by decide), hwithout]
  decide +kernel

end Picture

end Draftboard
