import Draftboard.Proofs.Picture.Concatenation

/-!
# Draftboard.Proofs.Picture.Separator

The scan that cuts a text into statements and the scan that takes out a label agree.

* The pieces of a text joined with semicolons are the text (`joinWith_statements`), and a semicolon is
  one of those between the pieces exactly if the scan is outside of all braces there (`separates_iff`).
* Outside of all braces, and not just after a backslash, the scan over a text is where a scan starts
  (`BraceScan.MathInside.eq_start`). So what `braced?` takes out from a brace there ends where the scan over the whole
  text is outside of all braces again for the first time, and there is nothing to take out if it never is
  (`braced?_eq_some_iff_firstReturn`, `braced?_eq_none_iff_firstReturn`).
-/

namespace Draftboard.Picture

open Text

/-! ### Pieces -/

/-- Joining the pieces undoes splitting. -/
theorem joinWith_statements (s : BraceScan) (text : List Char) :
    joinWith [';'] (statements s text) = text := by
  induction text generalizing s with
  | nil => rfl
  | cons c r ih =>
    rw [statements]
    split
    · rename_i hc
      rw [joinWith_cons (statements_ne_nil _ _), ih, hc.1]
      rfl
    · obtain ⟨v, vs, hr⟩ := List.exists_cons_of_ne_nil (statements_ne_nil (s.step c) r)
      rw [hr, consHead, cons_joinWith, ← hr, ih]

/-- The semicolon between two texts is one of those between the pieces. -/
def Separates (pieces : List (List Char)) (before after : List Char) : Prop :=
  ∃ first last, first ≠ [] ∧ last ≠ [] ∧ pieces = first ++ last ∧
    joinWith [';'] first = before ∧ joinWith [';'] last = after

/-- A text gets longer by what is put behind its last piece. -/
theorem length_joinWith_lt (ws : List (List Char)) (w : List Char) {t : List Char} (ht : t ≠ [])
    (vs : List (List Char)) :
    (joinWith [';'] (ws ++ [w])).length < (joinWith [';'] (ws ++ (w ++ t) :: vs)).length := by
  have hpos : 0 < t.length := List.length_pos_iff.2 ht
  induction ws with
  | nil =>
    cases vs with
    | nil =>
      simp only [List.nil_append, joinWith, List.length_append]
      omega
    | cons v vs =>
      simp only [List.nil_append, joinWith, List.length_append]
      omega
  | cons x ws ih =>
    rw [List.cons_append, List.cons_append, joinWith_cons (by simp), joinWith_cons (by simp)]
    simp only [List.length_append] at ih ⊢
    omega

/-- A semicolon separates two pieces exactly outside of all braces. -/
theorem separates_iff (before after : List Char) :
    Separates (statements {} (before ++ ';' :: after)) before after ↔
      (BraceScan.run {} before).depth = 0 := by
  obtain ⟨ws, w, hbefore, -, happend⟩ :=
    exists_statements_append BraceScan.mathInside_start before
  have hjoin : joinWith [';'] (ws ++ [w]) = before := by rw [← hbefore, joinWith_statements]
  have hdepth : ((BraceScan.run {} before).step ';').depth = (BraceScan.run {} before).depth := by
    simp [BraceScan.step]
  rw [happend, statements, hdepth]
  by_cases houtside : (BraceScan.run {} before).depth = 0
  · refine iff_of_true ?_ houtside
    rw [if_pos ⟨rfl, houtside⟩, appendHead, List.append_nil]
    exact ⟨ws ++ [w], statements ((BraceScan.run {} before).step ';') after, by simp,
      statements_ne_nil _ _, by simp, hjoin, joinWith_statements _ _⟩
  · refine iff_of_false ?_ houtside
    rintro ⟨first, last, hfirst, -, hpieces, hstart, -⟩
    obtain ⟨v, vs, hr⟩ := List.exists_cons_of_ne_nil
      (statements_ne_nil ((BraceScan.run {} before).step ';') after)
    rw [if_neg fun hc => houtside hc.2, hr, consHead, appendHead] at hpieces
    -- The piece with the semicolon starts in the first text, so it is neither left out nor whole there.
    have hwith : ∀ z, ws ≠ first ++ z := by
      rintro z rfl
      rw [List.append_assoc, joinWith_append hfirst (by simp), hstart] at hjoin
      have hlength := congrArg List.length hjoin
      simp only [List.length_append, List.length_singleton] at hlength
      omega
    rcases List.append_eq_append_iff.1 hpieces with ⟨z, rfl, hrest⟩ | ⟨z, hz, -⟩
    · cases z with
      | nil => exact hwith [] (by simp)
      | cons u z =>
        obtain ⟨rfl, -⟩ := List.cons.inj hrest
        have hlonger := length_joinWith_lt ws w (List.cons_ne_nil ';' v) z
        rw [hstart, hjoin] at hlonger
        exact Nat.lt_irrefl _ hlonger
    · exact hwith z hz

/-! ### The first return -/

/-- The part of a text after which a scan is outside of all braces for the first time. -/
structure FirstReturn (s : BraceScan) (text part : List Char) : Prop where
  starts : part <+: text
  nonempty : part ≠ []
  outside : (s.run part).depth = 0
  inside : ∀ before, before <+: part → before ≠ [] → before ≠ part → (s.run before).depth ≠ 0

/-- From an opening brace on, a scan returns first behind a text with balanced braces and the brace that
closes it. -/
theorem firstReturn_iff {after part : List Char} :
    FirstReturn {} ('{' :: after) part ↔ ∃ inner rest, part = '{' :: inner ++ ['}'] ∧
      after = inner ++ '}' :: rest ∧ Enclosed { depth := 1 } inner := by
  have hopen : ∀ t, BraceScan.run {} ('{' :: t) = BraceScan.run { depth := 1 } t := fun _ => rfl
  constructor
  · rintro ⟨hstarts, hne, houtside, hinside⟩
    obtain ⟨part, rfl, hpart⟩ := (List.prefix_cons_iff.1 hstarts).resolve_left hne
    obtain rfl | ⟨inner, c, rfl⟩ := List.eq_nil_or_concat part
    · exact absurd houtside (by decide)
    · rw [List.concat_eq_append] at *
      have hdepth : ∀ t, t <+: inner → (BraceScan.run { depth := 1 } t).depth ≠ 0 := fun t ht =>
        hinside ('{' :: t) (List.cons_prefix_cons.2 ⟨rfl, ht.trans (List.prefix_append _ _)⟩)
          (List.cons_ne_nil _ _) fun h => by
            have hlength := ht.length_le
            rw [(List.cons.inj h).2, List.length_append, List.length_singleton] at hlength
            omega
      -- The last character takes the depth to zero, so it closes the outermost brace.
      have hcloses : (BraceScan.run { depth := 1 } inner).closes c = true := by
        rw [hopen, BraceScan.run_append] at houtside
        by_cases hc : (BraceScan.run { depth := 1 } inner).closes c = true
        · exact hc
        · have hpos := BraceScan.depth_step_pos
            (Nat.pos_of_ne_zero (hdepth inner List.prefix_rfl)) (Bool.eq_false_iff.2 hc)
          exact absurd houtside (Nat.ne_of_gt hpos)
      obtain ⟨hends, rfl⟩ := BraceScan.closes_iff.1 hcloses
      obtain ⟨rest, rfl⟩ := hpart
      exact ⟨inner, rest, rfl, by simp, hdepth, hends⟩
  · rintro ⟨inner, rest, rfl, rfl, hinner⟩
    refine ⟨⟨rest, by simp⟩, by simp, ?_, fun before hbefore hne hnot => ?_⟩
    · rw [List.cons_append, hopen, BraceScan.run_append, hinner.ends]
      rfl
    · obtain ⟨t, rfl, ht⟩ := (List.prefix_cons_iff.1 hbefore).resolve_left hne
      rcases List.prefix_concat_iff.1 ht with rfl | ht
      · exact absurd rfl hnot
      · exact hinner.inside t ht

theorem braced?_append {gap : List Char} (h : '{' ∉ gap) (after : List Char) :
    braced? (gap ++ '{' :: after) = upToClosing? { depth := 1 } after := by
  rw [braced?, cutAt_char h, Option.bind_some]

/-- What is taken out of a text ends where the scan over the text returns first. -/
theorem braced?_eq_some_iff_firstReturn {gap after inner : List Char} (h : '{' ∉ gap) :
    braced? (gap ++ '{' :: after) = some inner ↔
      FirstReturn {} ('{' :: after) ('{' :: inner ++ ['}']) := by
  rw [braced?_append h, upToClosing?_eq_some_iff Nat.one_pos, firstReturn_iff]
  constructor
  · rintro ⟨rest, rfl, hinner⟩
    exact ⟨inner, rest, rfl, rfl, hinner⟩
  · rintro ⟨inner', rest, hpart, rfl, hinner⟩
    obtain rfl : inner = inner' := List.append_cancel_right (List.cons.inj hpart).2
    exact ⟨rest, rfl, hinner⟩

/-- Nothing is taken out exactly if the scan does not return. -/
theorem braced?_eq_none_iff_firstReturn {gap after : List Char} (h : '{' ∉ gap) :
    braced? (gap ++ '{' :: after) = none ↔ ∀ part, ¬ FirstReturn {} ('{' :: after) part := by
  rw [Option.eq_none_iff_forall_ne_some]
  constructor
  · intro hnone part hpart
    obtain ⟨inner, -, rfl, -⟩ := firstReturn_iff.1 hpart
    exact hnone inner ((braced?_eq_some_iff_firstReturn h).2 hpart)
  · exact fun hnever inner hinner =>
      hnever _ ((braced?_eq_some_iff_firstReturn h).1 hinner)

/-! ### Both uses -/

/-- The pieces of a text joined with semicolons are the text, and the semicolons between them are those
outside of all braces; dollar signs are open inside of braces only. Where the scan is outside of all braces and
not just after a backslash, the text of the first braces from there on ends where the scan returns first,
and there is none if it does not return. -/
theorem statements_and_braced_agree (text : List Char) :
    joinWith [';'] (statements {} text) = text ∧
    (∀ before after, text = before ++ ';' :: after →
      (Separates (statements {} text) before after ↔ (BraceScan.run {} before).depth = 0)) ∧
    (∀ before, before <+: text →
      (BraceScan.run {} before).inMath = true → 0 < (BraceScan.run {} before).depth) ∧
    ∀ before gap after, text = before ++ gap ++ '{' :: after → '{' ∉ gap →
      (BraceScan.run {} (before ++ gap)).depth = 0 →
      (BraceScan.run {} (before ++ gap)).escaped = false →
      (∀ inner, braced? (gap ++ '{' :: after) = some inner ↔
        FirstReturn (BraceScan.run {} (before ++ gap)) ('{' :: after) ('{' :: inner ++ ['}'])) ∧
      (braced? (gap ++ '{' :: after) = none ↔
        ∀ part, ¬ FirstReturn (BraceScan.run {} (before ++ gap)) ('{' :: after) part) := by
  refine ⟨joinWith_statements {} text, ?_, fun before _ => BraceScan.mathInside_start.run before, ?_⟩
  · rintro before after rfl
    exact separates_iff before after
  · intro before gap after _ hgap hdepth hescaped
    rw [(BraceScan.mathInside_start.run (before ++ gap)).eq_start hdepth hescaped]
    exact ⟨fun _ => braced?_eq_some_iff_firstReturn hgap, braced?_eq_none_iff_firstReturn hgap⟩

/-- A label with a semicolon, a brace between dollar signs and one behind a backslash. The scan returns behind
all three, and only the semicolon behind the label separates. -/
theorem statements_and_braced_agree_label :
    let text := "node \x7ba;$\x7d$\\\x7d\x7d;b".toList
    let after := "a;$\x7d$\\\x7d\x7d;b".toList
    text = "node".toList ++ [' '] ++ '{' :: after ∧ '{' ∉ [' '] ∧
      (BraceScan.run {} ("node".toList ++ [' '])).depth = 0 ∧
      (BraceScan.run {} ("node".toList ++ [' '])).escaped = false ∧
      FirstReturn (BraceScan.run {} ("node".toList ++ [' '])) ('{' :: after)
        ('{' :: "a;$\x7d$\\\x7d".toList ++ ['}']) ∧
      Separates (statements {} text) "node \x7ba;$\x7d$\\\x7d\x7d".toList ['b'] ∧
      ¬ Separates (statements {} text) "node \x7ba".toList "$\x7d$\\\x7d\x7d;b".toList := by
  intro text after
  obtain ⟨-, hseparates, -, hbraces⟩ := statements_and_braced_agree text
  have htext : text = "node".toList ++ [' '] ++ '{' :: after := by decide
  have hlabel := (hbraces "node".toList [' '] after htext (by decide) (by decide) (by decide)).1
  have hlast := hseparates "node \x7ba;$\x7d$\\\x7d\x7d".toList ['b'] (by decide)
  have hinner := hseparates "node \x7ba".toList "$\x7d$\\\x7d\x7d;b".toList (by decide)
  exact ⟨htext, by decide, by decide, by decide, (hlabel _).1 (by decide), hlast.2 (by decide),
    fun h => absurd (hinner.1 h) (by decide)⟩

end Draftboard.Picture
