import Draftboard.Picture.Scan
import Draftboard.Proofs.Text.Pieces

/-!
# Draftboard.Proofs.Picture.Visible

Which texts count as they stand.

* A line is `Legible` if it has no comment and is no environment line, and a text is
  `LegibleText` if all its lines are. `visible` keeps such a text (`visible_append`).
* Every line of a visible text is legible (`legible_visible`): comments and environment lines are
  taken out once. A part of such a text that starts at a brace keeps this (`legible_part`),
  since no backslash takes effect across a brace and no environment line starts with one.
* A command before a legible text and a semicolon behind it change nothing, if the command starts
  no environment line (`LegibleText.append_left`, `LegibleText.append_semicolon`).
-/

namespace Draftboard.Picture

open Text

/-! ### Comments -/

theorem beforeComment_cons_eq_iff {e : Bool} {c : Char} {r : List Char} :
    beforeComment e (c :: r) = c :: r ↔
      ¬ (c = '%' ∧ e = false) ∧ beforeComment (c == '\\' && !e) r = r := by
  rw [beforeComment]
  split <;> simp_all

/-- A text without percent signs has no comment. -/
theorem beforeComment_of_not_mem {s : List Char} (h : '%' ∉ s) (e : Bool) :
    beforeComment e s = s := by
  induction s generalizing e with
  | nil => rfl
  | cons c r ih =>
    obtain ⟨hc, hr⟩ := List.ne_and_not_mem_of_not_mem_cons h
    exact beforeComment_cons_eq_iff.2 ⟨fun hh => hc hh.1.symm, ih hr _⟩

/-- Comments are taken off once. -/
theorem beforeComment_beforeComment (e : Bool) (s : List Char) :
    beforeComment e (beforeComment e s) = beforeComment e s := by
  induction s generalizing e with
  | nil => rfl
  | cons c r ih =>
    rw [beforeComment]
    split
    · rfl
    · rename_i hc
      exact beforeComment_cons_eq_iff.2 ⟨hc, ih _⟩

theorem beforeComment_of_append {e : Bool} {s t : List Char}
    (h : beforeComment e (s ++ t) = s ++ t) : beforeComment e s = s := by
  induction s generalizing e with
  | nil => rfl
  | cons c r ih =>
    rw [List.cons_append, beforeComment_cons_eq_iff] at h
    exact beforeComment_cons_eq_iff.2 ⟨h.1, ih h.2⟩

/-- No backslash takes effect across a brace. -/
theorem beforeComment_brace (e : Bool) (r : List Char) :
    beforeComment e ('{' :: r) = '{' :: beforeComment false r := by
  rw [beforeComment, if_neg (by simp)]
  rfl

theorem beforeComment_brace_of_append {e : Bool} {s r : List Char}
    (h : beforeComment e (s ++ '{' :: r) = s ++ '{' :: r) :
    beforeComment false ('{' :: r) = '{' :: r := by
  induction s generalizing e with
  | nil =>
    rw [List.nil_append, beforeComment_brace] at h
    rw [beforeComment_brace, h]
  | cons c s ih =>
    rw [List.cons_append, beforeComment_cons_eq_iff] at h
    exact ih h.2

theorem beforeComment_append_brace {s r : List Char} (hs : '%' ∉ s)
    (h : beforeComment false ('{' :: r) = '{' :: r) (e : Bool) :
    beforeComment e (s ++ '{' :: r) = s ++ '{' :: r := by
  induction s generalizing e with
  | nil =>
    rw [beforeComment_brace] at h
    rw [List.nil_append, beforeComment_brace, h]
  | cons c s ih =>
    obtain ⟨hc, hs⟩ := List.ne_and_not_mem_of_not_mem_cons hs
    exact beforeComment_cons_eq_iff.2 ⟨fun hh => hc hh.1.symm, ih hs _⟩

theorem beforeComment_append_of_not_mem {s t : List Char} {e : Bool} (hs : beforeComment e s = s)
    (ht : '%' ∉ t) : beforeComment e (s ++ t) = s ++ t := by
  induction s generalizing e with
  | nil => exact beforeComment_of_not_mem ht e
  | cons c s ih =>
    rw [beforeComment_cons_eq_iff] at hs
    exact beforeComment_cons_eq_iff.2 ⟨hs.1, ih hs.2⟩

/-! ### Environment lines -/

theorem isEnvironmentLine_iff {line : List Char} :
    isEnvironmentLine line = true ↔ opening <+: trimStart line ∨ closing <+: trimStart line := by
  rw [isEnvironmentLine, Bool.or_eq_true, List.isPrefixOf_iff_prefix, List.isPrefixOf_iff_prefix]

/-- A line opens or closes a picture by what it starts with. -/
theorem isEnvironmentLine_append {s : List Char} (h : isEnvironmentLine s = true) (t : List Char) :
    isEnvironmentLine (s ++ t) = true := by
  rw [isEnvironmentLine_iff] at h ⊢
  have hne : trimStart s ≠ [] := by
    rintro hnil
    rw [hnil] at h
    exact absurd h (by decide)
  rw [trimStart_append hne]
  exact h.imp (fun h => h.trans (List.prefix_append _ _))
    (fun h => h.trans (List.prefix_append _ _))

theorem prefix_of_prefix_append_singleton {m s : List Char} {c : Char} (hc : c ∉ m)
    (h : m <+: s ++ [c]) : m <+: s := by
  rcases List.prefix_concat_iff.1 h with rfl | h
  · exact absurd (by simp) hc
  · exact h

/-- A semicolon makes no environment line. -/
theorem isEnvironmentLine_append_semicolon {s : List Char} (h : isEnvironmentLine s = false) :
    isEnvironmentLine (s ++ [';']) = false := by
  refine Bool.eq_false_iff.2 fun hne => ?_
  rw [isEnvironmentLine_iff] at hne
  rw [← Bool.not_eq_true, isEnvironmentLine_iff] at h
  by_cases hnil : trimStart s = []
  -- Of blanks and a semicolon the semicolon is left, which starts no command.
  · have hsemi : trimStart (s ++ [';']) = [';'] := by
      unfold trimStart at hnil ⊢
      rw [List.dropWhile_append, hnil]
      rfl
    rw [hsemi] at hne
    exact absurd hne (by decide)
  · rw [trimStart_append hnil] at hne
    exact h (hne.imp (prefix_of_prefix_append_singleton (by decide))
      (prefix_of_prefix_append_singleton (by decide)))

theorem isEnvironmentLine_brace (r : List Char) : isEnvironmentLine ('{' :: r) = false := by
  rw [← Bool.not_eq_true, isEnvironmentLine_iff, trimStart_cons_of_not_blank (by decide)]
  rintro (⟨t, ht⟩ | ⟨t, ht⟩) <;> cases ht

/-! ### Legible texts -/

/-- A line that counts as it stands: it has no comment and does not open or close a picture. -/
structure Legible (line : List Char) : Prop where
  uncommented : beforeComment false line = line
  content : isEnvironmentLine line = false

/-- A text of which every line counts as it stands. A carriage return at the end of a line would
go with the line feed. -/
def LegibleText (text : List Char) : Prop :=
  ∀ line ∈ splitWhere (· == '\n') text, Legible line ∧ line.getLast? ≠ some '\r'

theorem Legible.of_append {s t : List Char} (h : Legible t) (hs : s <+: t) : Legible s := by
  obtain ⟨u, rfl⟩ := hs
  refine ⟨beforeComment_of_append h.uncommented, Bool.eq_false_iff.2 fun hs => ?_⟩
  exact absurd (isEnvironmentLine_append hs u) (by rw [h.content]; decide)

theorem Legible.of_brace_suffix {s r : List Char}
    (h : Legible (s ++ '{' :: r)) : Legible ('{' :: r) :=
  ⟨beforeComment_brace_of_append h.uncommented, isEnvironmentLine_brace r⟩

theorem Legible.append_semicolon {s : List Char} (h : Legible s) : Legible (s ++ [';']) :=
  ⟨beforeComment_append_of_not_mem h.uncommented (by decide),
    isEnvironmentLine_append_semicolon h.content⟩

/-- Legible lines are visible, and so is what comes after them. -/
theorem visibleLines_append {text : List Char} (h : LegibleText text) (r : List Char) :
    visibleLines (text ++ '\n' :: r) = splitWhere (· == '\n') text ++ visibleLines r := by
  have hlines : lines (text ++ '\n' :: r) = splitWhere (· == '\n') text ++ lines r := by
    have hj := lines_joinWith (splitWhere_ne_nil (· == '\n') text)
      (fun s hs => ⟨fun hlf => by simpa using (mem_of_mem_splitWhere hs '\n' hlf).2, (h s hs).2⟩) r
    rwa [joinWith_splitWhere] at hj
  have hmap : (splitWhere (· == '\n') text).map (beforeComment false) =
      splitWhere (· == '\n') text :=
    (List.map_congr_left fun s hs => (h s hs).1.uncommented).trans (List.map_id _)
  have hkeep : (splitWhere (· == '\n') text).filter (fun line => !isEnvironmentLine line) =
      splitWhere (· == '\n') text :=
    List.filter_eq_self.2 fun s hs => by rw [(h s hs).1.content]; rfl
  rw [visibleLines, hlines, List.map_append, hmap, List.filter_append, hkeep, visibleLines]

theorem visible_append {text : List Char} (h : LegibleText text) (r : List Char) :
    visible (text ++ '\n' :: r) = text ++ if visibleLines r = [] then [] else '\n' :: visible r := by
  rw [visible, visibleLines_append h]
  split
  · rename_i hr
    rw [hr, List.append_nil, List.append_nil, joinWith_splitWhere]
  · rename_i hr
    rw [joinWith_append (splitWhere_ne_nil _ _) hr, joinWith_splitWhere, List.append_assoc]
    rfl

/-! ### Parts of a legible text -/

/-- What a brace starts in a text of legible lines has legible lines. -/
theorem legible_part {x m y : List Char}
    (h : ∀ line ∈ splitWhere (· == '\n') (x ++ ('{' :: m ++ y)), Legible line) :
    ∀ line ∈ splitWhere (· == '\n') ('{' :: m), Legible line := by
  -- First the text before the brace goes, then the text behind the part.
  have hmid : ∀ line ∈ splitWhere (· == '\n') ('{' :: m ++ y), Legible line := by
    obtain ⟨ws, w, -, happ⟩ := exists_splitWhere_append (· == '\n') x
    have hhead : splitWhere (· == '\n') ('{' :: m ++ y) =
        consHead '{' (splitWhere (· == '\n') (m ++ y)) := by
      rw [List.cons_append, splitWhere, if_neg (by decide)]
    rw [happ, hhead] at h
    rw [hhead]
    cases hv : splitWhere (· == '\n') (m ++ y) with
    | nil => exact absurd hv (splitWhere_ne_nil _ _)
    | cons v vs =>
      rw [hv] at h
      intro line hl
      rcases List.mem_cons.1 hl with rfl | hl
      · exact (h (w ++ '{' :: v) (List.mem_append_right _ List.mem_cons_self)).of_brace_suffix
      · exact h line (List.mem_append_right _ (List.mem_cons_of_mem _ hl))
  obtain ⟨ws, w, hm, happ⟩ := exists_splitWhere_append (· == '\n') ('{' :: m)
  rw [happ] at hmid
  intro line hl
  rw [hm] at hl
  rcases List.mem_append.1 hl with hl | hl
  · exact hmid line (List.mem_append_left _ hl)
  · obtain rfl := List.mem_singleton.1 hl
    cases hv : splitWhere (· == '\n') y with
    | nil => exact absurd hv (splitWhere_ne_nil _ _)
    | cons v vs =>
      rw [hv] at hmid
      exact (hmid (line ++ v) (List.mem_append_right _ List.mem_cons_self)).of_append
        (List.prefix_append _ _)

theorem prefix_beforeComment (e : Bool) (s : List Char) : beforeComment e s <+: s := by
  induction s generalizing e with
  | nil => exact List.prefix_refl _
  | cons c r ih =>
    rw [beforeComment]
    split
    · exact List.nil_prefix
    · exact List.cons_prefix_cons.2 ⟨rfl, ih _⟩

theorem mem_of_mem_visibleLines {text line : List Char} (h : line ∈ visibleLines text) {c : Char}
    (hc : c ∈ line) : c ∈ text ∧ c ≠ '\n' := by
  obtain ⟨hl, -⟩ := List.mem_filter.1 h
  obtain ⟨l, hmem, rfl⟩ := List.mem_map.1 hl
  exact mem_of_mem_lines l hmem c ((prefix_beforeComment _ _).mem hc)

theorem mem_of_mem_visible {text : List Char} {c : Char} (h : c ∈ visible text) :
    c = '\n' ∨ c ∈ text := by
  rcases mem_of_mem_joinWith h with h | ⟨l, hl, hc⟩
  · exact .inl (List.mem_singleton.1 h)
  · exact .inr (mem_of_mem_visibleLines hl hc).1

/-- Every line of a visible text counts as it stands. -/
theorem legible_visible (text : List Char) :
    ∀ line ∈ splitWhere (· == '\n') (visible text), Legible line := by
  -- The empty text has a line, also where none of the lines of the text has been kept.
  by_cases hnil : visibleLines text = []
  · rw [visible, hnil]
    intro line hl
    obtain rfl := List.mem_singleton.1 hl
    exact ⟨rfl, rfl⟩
  · rw [visible, splitWhere_joinWith hnil fun l hl hc => (mem_of_mem_visibleLines hl hc).2 rfl]
    intro line hl
    obtain ⟨hl, hcontent⟩ := List.mem_filter.1 hl
    obtain ⟨l, -, rfl⟩ := List.mem_map.1 hl
    exact ⟨beforeComment_beforeComment _ _, by simpa using hcontent⟩

/-! ### Written texts -/

/-- A command before a brace leaves the first line legible, and the other lines are the same. -/
theorem LegibleText.append_left {a m : List Char} (h : LegibleText ('{' :: m)) (ha : '%' ∉ a)
    (hlf : '\n' ∉ a) (hline : ∀ r, isEnvironmentLine (a ++ r) = false) :
    LegibleText (a ++ '{' :: m) := by
  have hhead : splitWhere (· == '\n') ('{' :: m) = consHead '{' (splitWhere (· == '\n') m) := by
    rw [splitWhere, if_neg (by decide)]
  have hsplit : splitWhere (· == '\n') (a ++ '{' :: m) =
      appendHead a (splitWhere (· == '\n') ('{' :: m)) :=
    splitWhere_append (fun c hc => beq_eq_false_iff_ne.2 fun h => hlf (by rw [← h]; exact hc)) _
  unfold LegibleText at h ⊢
  rw [hhead] at h hsplit
  rw [hsplit]
  cases hm : splitWhere (· == '\n') m with
  | nil => exact absurd hm (splitWhere_ne_nil _ _)
  | cons v vs =>
    rw [hm] at h
    intro line hl
    rcases List.mem_cons.1 hl with rfl | hl
    · obtain ⟨hv, hcr⟩ := h ('{' :: v) List.mem_cons_self
      refine ⟨⟨beforeComment_append_brace ha hv.uncommented _, hline _⟩, ?_⟩
      rw [List.getLast?_append, List.getLast?_cons, Option.some_or, ← List.getLast?_cons]
      exact hcr
    · exact h line (List.mem_cons_of_mem _ hl)

theorem LegibleText.append_semicolon {t : List Char} (h : LegibleText t) :
    LegibleText (t ++ [';']) := by
  obtain ⟨ws, w, ht, happ⟩ := exists_splitWhere_append (· == '\n') t
  unfold LegibleText at h ⊢
  rw [happ]
  rw [ht] at h
  intro line hl
  rcases List.mem_append.1 hl with hl | hl
  · exact h line (List.mem_append_left _ hl)
  · obtain rfl : line = w ++ [';'] := List.mem_singleton.1 hl
    obtain ⟨hw, -⟩ := h w (List.mem_append_right _ List.mem_cons_self)
    exact ⟨hw.append_semicolon, by simp⟩

end Draftboard.Picture
