import Draftboard.Text.Line

/-!
# Draftboard.Proofs.Text.Pieces

Cutting, trimming and splitting a text that has been put together.

Each operation of `Draftboard.Text` that takes a text apart comes with what it does to a text of
known parts: `cutAt` finds the pattern between two of them (`cutAt_append`), `trim` drops nothing
between ends that are not blank (`trim_of_ends`), and `splitWhere` and `lines` give back the pieces
that were joined (`joinWith_splitWhere`, `lines_joinWith`). What is cut out of a text is an infix
of it, so that a property of all its characters or lines is kept.
-/

namespace Draftboard.Text

/-! ### Alphabets -/

/-- No character of a text is in a class, if none of its alphabet is. -/
theorem eq_false_of_any {p : Char → Bool} {alphabet : List Char} (h : alphabet.any p = false)
    {c : Char} (hc : c ∈ alphabet) : p c = false :=
  Bool.eq_false_iff.2 (List.any_eq_false.1 h c hc)

/-- A text over an alphabet has none of the characters that the alphabet does not have. -/
theorem not_mem_of_any {s alphabet others : List Char} (hs : s ⊆ alphabet)
    (h : alphabet.any others.contains = false) : ∀ c ∈ others, c ∉ s := by
  intro c hc hmem
  have hnot := eq_false_of_any h (hs hmem)
  rw [List.contains_iff_mem.2 hc] at hnot
  cases hnot

/-! ### Cutting -/

/-- A text is cut at a pattern whose first character does not come before it. -/
theorem cutAt_append {c : Char} {p s : List Char} (h : c ∉ s) (r : List Char) :
    cutAt (c :: p) (s ++ (c :: p) ++ r) = some (s, r) := by
  induction s with
  | nil =>
    have hp : (c :: p).isPrefixOf (c :: p ++ r) = true :=
      List.isPrefixOf_iff_prefix.2 (List.prefix_append _ _)
    simp only [List.nil_append, List.cons_append] at hp ⊢
    rw [cutAt, if_pos hp, List.length_cons, List.drop_succ_cons, List.drop_left]
  | cons d s ih =>
    obtain ⟨hd, hs⟩ := List.ne_and_not_mem_of_not_mem_cons h
    have hp : ¬ (c :: p).isPrefixOf (d :: (s ++ (c :: p) ++ r)) = true := by
      rw [List.isPrefixOf_iff_prefix, List.cons_prefix_cons]
      exact fun hh => hd hh.1
    rw [List.cons_append, List.cons_append, cutAt, if_neg hp, ih hs, Option.map_some]

theorem cutAt_char {c : Char} {s : List Char} (h : c ∉ s) (r : List Char) :
    cutAt [c] (s ++ c :: r) = some (s, r) := by
  simpa using cutAt_append (p := []) h r

/-- What is cut off at the end is an end of the text. -/
theorem suffix_of_cutAt {p s before after : List Char} (h : cutAt p s = some (before, after)) :
    after <:+ s := by
  rw [append_of_cutAt h]
  exact List.suffix_append _ _

/-- A text without one of the characters of a pattern has no occurrence of it. -/
theorem cutAt_eq_none {c : Char} {p s : List Char} (hp : c ∈ p) (hs : c ∉ s) :
    cutAt p s = none := by
  cases h : cutAt p s with
  | none => rfl
  | some cut =>
    obtain ⟨before, after⟩ := cut
    exact absurd (append_of_cutAt h ▸ by simp [hp]) hs

theorem occursIn_eq_false {c : Char} {p s : List Char} (hp : c ∈ p) (hs : c ∉ s) :
    occursIn p s = false := by
  rw [occursIn, cutAt_eq_none hp hs, Option.isSome_none]

theorem occursIn_of_cutAt {p s : List Char} {cut : List Char × List Char}
    (h : cutAt p s = some cut) :
    occursIn p s = true := by
  rw [occursIn, h, Option.isSome_some]

/-- The longest start of a text with a property ends where the property does. -/
theorem takeWhile_append_of_head {p : Char → Bool} {s r : List Char} (hs : ∀ c ∈ s, p c = true)
    (hr : ∀ c, r.head? = some c → p c = false) :
    (s ++ r).takeWhile p = s ∧ (s ++ r).dropWhile p = r := by
  rw [List.takeWhile_append_of_pos hs, List.dropWhile_append_of_pos hs]
  cases r with
  | nil => simp
  | cons c r =>
    have hc := hr c rfl
    simp [hc]

/-- Taking the enclosing characters off undoes putting them on. -/
theorem inside?_append (a b : Char) (s : List Char) : inside? a b (a :: s ++ [b]) = some s := by
  simp [inside?]

/-! ### Trimming -/

theorem trimStart_cons_of_blank {c : Char} (h : isBlank c = true) (s : List Char) :
    trimStart (c :: s) = trimStart s := by
  rw [trimStart, List.dropWhile_cons_of_pos h, trimStart]

theorem trimStart_cons_of_not_blank {c : Char} (h : isBlank c = false) (s : List Char) :
    trimStart (c :: s) = c :: s := by
  rw [trimStart, List.dropWhile_cons_of_neg (by simp [h])]

theorem trim_cons_of_blank {c : Char} (h : isBlank c = true) (s : List Char) :
    trim (c :: s) = trim s := by
  rw [trim, trimStart_cons_of_blank h, trim]

theorem trim_append_of_blanks {w : List Char} (hw : ∀ c ∈ w, isBlank c = true) (s : List Char) :
    trim (w ++ s) = trim s := by
  induction w with
  | nil => rfl
  | cons c w ih =>
    obtain ⟨hc, hw⟩ := List.forall_mem_cons.1 hw
    rw [List.cons_append, trim_cons_of_blank hc, ih hw]

theorem trimEnd_append_of_blank {c : Char} (h : isBlank c = true) (s : List Char) :
    trimEnd (s ++ [c]) = trimEnd s := by
  rw [trimEnd, List.reverse_append, List.reverse_singleton, List.singleton_append,
    List.dropWhile_cons_of_pos h, trimEnd]

theorem trimEnd_append_of_not_blank {c : Char} (h : isBlank c = false) (s : List Char) :
    trimEnd (s ++ [c]) = s ++ [c] := by
  rw [trimEnd, List.reverse_append, List.reverse_singleton, List.singleton_append,
    List.dropWhile_cons_of_neg (by simp [h]), List.reverse_cons, List.reverse_reverse]

theorem trimStart_append {s : List Char} (h : trimStart s ≠ []) (t : List Char) :
    trimStart (s ++ t) = trimStart s ++ t := by
  rw [trimStart, List.dropWhile_append]
  split
  · rename_i hnil
    exact absurd (List.isEmpty_iff.1 hnil) h
  · rfl

theorem trim_append_of_blank {c : Char} (h : isBlank c = true) (s : List Char) :
    trim (s ++ [c]) = trim s := by
  by_cases hs : trimStart s = []
  -- A text of blanks only is trimmed from its start.
  · have hc : trimStart (s ++ [c]) = [] := by
      unfold trimStart at hs ⊢
      rw [List.dropWhile_append, hs, List.isEmpty_nil, if_pos rfl, List.dropWhile_cons_of_pos h,
        List.dropWhile_nil]
    rw [trim, trim, hc, hs]
  · rw [trim, trimStart_append hs, trimEnd_append_of_blank h, trim]

/-- A text that neither starts nor ends with a blank has nothing to trim. -/
theorem trim_of_ends {s : List Char} (hs : ∀ c, s.head? = some c → isBlank c = false)
    (he : ∀ c, s.getLast? = some c → isBlank c = false) : trim s = s := by
  rcases s with _ | ⟨a, t⟩
  · rfl
  · rw [trim, trimStart_cons_of_not_blank (hs a rfl)]
    rcases List.eq_nil_or_concat (a :: t) with hn | ⟨u, b, hb⟩
    · cases hn
    · rw [List.concat_eq_append] at hb
      rw [hb] at he ⊢
      exact trimEnd_append_of_not_blank (he b (by simp)) u

/-- A text without blanks has nothing to trim. -/
theorem trim_of_no_blank {s : List Char} (h : ∀ c ∈ s, isBlank c = false) : trim s = s :=
  trim_of_ends (fun c hc => h c (List.mem_of_mem_head? hc))
    (fun c hc => h c (List.mem_of_getLast? hc))

theorem trimStart_suffix (s : List Char) : trimStart s <:+ s := List.dropWhile_suffix _

theorem trim_isInfix (s : List Char) : trim s <:+: s := by
  have hend : trimEnd (trimStart s) <+: trimStart s := by
    rw [trimEnd, ← List.reverse_suffix, List.reverse_reverse]
    exact List.dropWhile_suffix _
  exact hend.isInfix.trans (trimStart_suffix s).isInfix

/-! ### Pieces -/

/-- Puts a text in front of the first piece. -/
def appendHead (s : List Char) : List (List Char) → List (List Char)
  | [] => [s]
  | w :: ws => (s ++ w) :: ws

@[simp] theorem consHead_appendHead (c : Char) (s : List Char) (ws : List (List Char)) :
    consHead c (appendHead s ws) = appendHead (c :: s) ws := by
  cases ws <;> rfl

@[simp] theorem appendHead_appendHead (s t : List Char) (ws : List (List Char)) :
    appendHead s (appendHead t ws) = appendHead (s ++ t) ws := by
  cases ws <;> simp [appendHead]

theorem appendHead_nil {ws : List (List Char)} (h : ws ≠ []) : appendHead [] ws = ws := by
  cases ws with
  | nil => exact absurd rfl h
  | cons w ws => rfl

theorem consHead_eq_appendHead (c : Char) (ws : List (List Char)) :
    consHead c ws = appendHead [c] ws := by
  cases ws <;> rfl

variable {p : Char → Bool}

/-- Characters at which nothing is split go to the first piece. -/
theorem splitWhere_append {s : List Char} (h : ∀ c ∈ s, p c = false) (r : List Char) :
    splitWhere p (s ++ r) = appendHead s (splitWhere p r) := by
  induction s with
  | nil => exact (appendHead_nil (splitWhere_ne_nil p r)).symm
  | cons c s ih =>
    rw [List.forall_mem_cons] at h
    rw [List.cons_append, splitWhere, if_neg (by simp [h.1]), ih h.2, consHead_appendHead]

theorem splitWhere_of_none {s : List Char} (h : ∀ c ∈ s, p c = false) : splitWhere p s = [s] := by
  simpa [splitWhere, appendHead] using splitWhere_append h []

theorem splitWhere_append_cons {s : List Char} {d : Char} (h : ∀ c ∈ s, p c = false)
    (hd : p d = true) (r : List Char) : splitWhere p (s ++ d :: r) = s :: splitWhere p r := by
  rw [splitWhere_append h, splitWhere, if_pos hd, appendHead, List.append_nil]

/-- A piece holds characters of the text, and none at which it is split. -/
theorem mem_of_mem_splitWhere {s w : List Char} (hw : w ∈ splitWhere p s) :
    ∀ c ∈ w, c ∈ s ∧ p c = false := by
  induction s generalizing w with
  | nil =>
    rw [splitWhere, List.mem_singleton] at hw
    simp [hw]
  | cons c s ih =>
    have hrest : ∀ {v}, v ∈ splitWhere p s → ∀ d ∈ v, d ∈ c :: s ∧ p d = false := fun hv d hd =>
      ⟨List.mem_cons_of_mem _ (ih hv d hd).1, (ih hv d hd).2⟩
    rw [splitWhere] at hw
    split at hw
    · rcases List.mem_cons.1 hw with rfl | hw
      · simp
      · exact hrest hw
    · rename_i hc
      rw [Bool.not_eq_true] at hc
      cases hs : splitWhere p s with
      | nil => exact absurd hs (splitWhere_ne_nil p s)
      | cons v vs =>
        rw [hs] at hw hrest
        rcases List.mem_cons.1 hw with rfl | hw
        · exact List.forall_mem_cons.2 ⟨⟨List.mem_cons_self, hc⟩, hrest List.mem_cons_self⟩
        · exact hrest (List.mem_cons_of_mem _ hw)

/-- What is put behind a text goes to its last piece. -/
theorem exists_splitWhere_append (p : Char → Bool) (s : List Char) :
    ∃ ws w, splitWhere p s = ws ++ [w] ∧
      ∀ t, splitWhere p (s ++ t) = ws ++ appendHead w (splitWhere p t) := by
  induction s with
  | nil => exact ⟨[], [], rfl, fun t => (appendHead_nil (splitWhere_ne_nil p t)).symm⟩
  | cons c s ih =>
    obtain ⟨ws, w, hs, ht⟩ := ih
    by_cases hc : p c = true
    -- The text is split here, so a new piece comes in front.
    · refine ⟨[] :: ws, w, ?_, fun t => ?_⟩
      · rw [splitWhere, if_pos hc, hs, List.cons_append]
      · rw [List.cons_append, splitWhere, if_pos hc, ht, List.cons_append]
    -- The character goes to the first piece, which may be the last one too.
    · cases ws with
      | nil =>
        refine ⟨[], c :: w, ?_, fun t => ?_⟩
        · rw [splitWhere, if_neg hc, hs]; rfl
        · rw [List.cons_append, splitWhere, if_neg hc, ht, List.nil_append, consHead_appendHead,
            List.nil_append]
      | cons v vs =>
        refine ⟨(c :: v) :: vs, w, ?_, fun t => ?_⟩
        · rw [splitWhere, if_neg hc, hs]; rfl
        · rw [List.cons_append, splitWhere, if_neg hc, ht]; rfl

/-! ### Lines -/

theorem joinWith_cons {sep s : List Char} {ss : List (List Char)} (h : ss ≠ []) :
    joinWith sep (s :: ss) = s ++ sep ++ joinWith sep ss := by
  cases ss with
  | nil => exact absurd rfl h
  | cons t ts => rfl

theorem joinWith_append {sep : List Char} {ss ts : List (List Char)} (hs : ss ≠ []) (ht : ts ≠ []) :
    joinWith sep (ss ++ ts) = joinWith sep ss ++ sep ++ joinWith sep ts := by
  induction ss with
  | nil => exact absurd rfl hs
  | cons s ss ih =>
    by_cases hss : ss = []
    · subst hss
      exact joinWith_cons ht
    · rw [List.cons_append, joinWith_cons (by simp [hss]), ih hss, joinWith_cons hss]
      simp only [List.append_assoc]

/-- A piece stands at the end of the joined text or before a separator. -/
theorem isInfix_joinWith_of_mem {sep s : List Char} {ss : List (List Char)} (h : s ∈ ss) :
    s <:+ joinWith sep ss ∨ s ++ sep <:+: joinWith sep ss := by
  induction ss with
  | nil => exact absurd h List.not_mem_nil
  | cons t ts ih =>
    by_cases hts : ts = []
    · subst hts
      obtain rfl := List.mem_singleton.1 h
      exact .inl (List.suffix_refl _)
    · rw [joinWith_cons hts]
      rcases List.mem_cons.1 h with rfl | h
      · exact .inr (List.prefix_append _ _).isInfix
      · have hsuffix := List.suffix_append (t ++ sep) (joinWith sep ts)
        exact (ih h).imp (fun hs => hs.trans hsuffix) fun hs => hs.trans hsuffix.isInfix

theorem cons_joinWith (sep : List Char) (c : Char) (s : List Char) (ss : List (List Char)) :
    joinWith sep ((c :: s) :: ss) = c :: joinWith sep (s :: ss) := by
  cases ss <;> rfl

/-- Joining the pieces undoes splitting. -/
theorem joinWith_splitWhere (d : Char) (s : List Char) :
    joinWith [d] (splitWhere (· == d) s) = s := by
  induction s with
  | nil => rfl
  | cons c s ih =>
    have hne := splitWhere_ne_nil (· == d) s
    rw [splitWhere]
    split
    · rename_i hc
      rw [joinWith_cons hne, ih, eq_of_beq hc]; rfl
    · cases hs : splitWhere (· == d) s with
      | nil => exact absurd hs hne
      | cons w ws => rw [consHead, cons_joinWith, ← hs, ih]

theorem lines_cons {c : Char} {r : List Char} (h : c ≠ '\n')
    (hr : c = '\r' → r.head? ≠ some '\n') : lines (c :: r) = consHead c (lines r) := by
  rw [lines.eq_def]
  split
  · simp_all
  · simp_all
  · simp_all
  · simp_all

/-- A line feed ends a line, unless a carriage return before it does. -/
theorem lines_append {s : List Char} (hs : '\n' ∉ s) (hr : s.getLast? ≠ some '\r') (r : List Char) :
    lines (s ++ '\n' :: r) = s :: lines r := by
  induction s with
  | nil => simp [lines]
  | cons c s ih =>
    obtain ⟨hc, hs⟩ := List.ne_and_not_mem_of_not_mem_cons hs
    have hcr : c = '\r' → (s ++ '\n' :: r).head? ≠ some '\n' := by
      rintro rfl
      cases s with
      | nil => simp at hr
      | cons d s => simpa using fun h : d = '\n' => hs (by simp [h])
    have hlast : s.getLast? ≠ some '\r' := by
      cases s with
      | nil => simp
      | cons d s => simpa using hr
    rw [List.cons_append, lines_cons hc.symm hcr, ih hs hlast, consHead]

/-- The lines of a text are its pieces between line feeds, if none of them ends with a carriage
return. -/
theorem lines_joinWith {ss : List (List Char)} (hne : ss ≠ [])
    (hs : ∀ s ∈ ss, '\n' ∉ s ∧ s.getLast? ≠ some '\r') (r : List Char) :
    lines (joinWith ['\n'] ss ++ '\n' :: r) = ss ++ lines r := by
  induction ss with
  | nil => exact absurd rfl hne
  | cons s ss ih =>
    obtain ⟨⟨hlf, hcr⟩, hss⟩ := List.forall_mem_cons.1 hs
    by_cases hnil : ss = []
    · subst hnil
      exact lines_append hlf hcr r
    · rw [joinWith_cons hnil, List.append_assoc, List.append_assoc, List.singleton_append,
        lines_append hlf hcr, ih hnil hss, List.cons_append]

/-- Splitting undoes joining pieces that are not split themselves. -/
theorem splitWhere_joinWith {d : Char} {ss : List (List Char)} (hne : ss ≠ [])
    (h : ∀ s ∈ ss, d ∉ s) : splitWhere (· == d) (joinWith [d] ss) = ss := by
  induction ss with
  | nil => exact absurd rfl hne
  | cons s ss ih =>
    obtain ⟨hs, hss⟩ := List.forall_mem_cons.1 h
    have hd : ∀ c ∈ s, (c == d) = false := fun c hc =>
      beq_eq_false_iff_ne.2 fun hcd => hs (hcd ▸ hc)
    by_cases hnil : ss = []
    · subst hnil
      exact splitWhere_of_none hd
    · rw [joinWith_cons hnil, List.append_assoc, List.singleton_append,
        splitWhere_append_cons hd (beq_self_eq_true d), ih hnil hss]

theorem mem_of_mem_joinWith {sep : List Char} {ss : List (List Char)} {c : Char}
    (h : c ∈ joinWith sep ss) : c ∈ sep ∨ ∃ s ∈ ss, c ∈ s := by
  induction ss with
  | nil => cases h
  | cons s ss ih =>
    by_cases hnil : ss = []
    · subst hnil
      exact .inr ⟨s, List.mem_cons_self, h⟩
    · rw [joinWith_cons hnil, List.append_assoc, List.mem_append, List.mem_append] at h
      rcases h with h | h | h
      · exact .inr ⟨s, List.mem_cons_self, h⟩
      · exact .inl h
      · exact (ih h).imp id fun ⟨t, ht, hc⟩ => ⟨t, List.mem_cons_of_mem _ ht, hc⟩

/-- A line holds characters of the text, but no line feed. -/
theorem mem_of_mem_lines {s : List Char} : ∀ line ∈ lines s, ∀ c ∈ line, c ∈ s ∧ c ≠ '\n' := by
  fun_induction lines s with
  | case1 => exact fun line hl => absurd hl List.not_mem_nil
  | case2 r ih | case3 r ih =>
    intro line hl c hc
    rcases List.mem_cons.1 hl with rfl | hl
    · cases hc
    · exact ⟨by simp [(ih line hl c hc).1], (ih line hl c hc).2⟩
  | case4 d r _ hlf ih =>
    intro line hl c hc
    -- The head of the remaining lines takes the character; the others stay.
    have hsplit : line ∈ lines r ∨ ∃ v, line = d :: v ∧ (v = [] ∨ v ∈ lines r) := by
      cases hr : lines r with
      | nil => rw [hr] at hl; exact .inr ⟨[], List.mem_singleton.1 hl, .inl rfl⟩
      | cons v vs =>
        rw [hr] at hl
        rcases List.mem_cons.1 hl with rfl | hl
        · exact .inr ⟨v, rfl, .inr List.mem_cons_self⟩
        · exact .inl (List.mem_cons_of_mem _ hl)
    rcases hsplit with hl | ⟨v, rfl, hv⟩
    · exact ⟨List.mem_cons_of_mem _ (ih line hl c hc).1, (ih line hl c hc).2⟩
    · rcases List.mem_cons.1 hc with rfl | hc
      · exact ⟨List.mem_cons_self, hlf⟩
      · rcases hv with rfl | hv
        · cases hc
        · exact ⟨List.mem_cons_of_mem _ (ih v hv c hc).1, (ih v hv c hc).2⟩

end Draftboard.Text
