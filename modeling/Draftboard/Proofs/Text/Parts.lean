import Draftboard.Proofs.Text.Pieces

/-!
# Draftboard.Proofs.Text.Parts

What a text is made of, where it can be taken apart.

Each of the operations that look for something in a text is described by the text that it succeeds on:
`cutAt` stops at the first occurrence of its pattern (`cutAt_eq_some_iff`), `inside?` takes off two
enclosing characters (`inside?_eq_some_iff`), and `trim` leaves what stands between blanks
(`padded_trim`, `Padded.trim_eq`).
-/

namespace Draftboard.Text

/-! ### The first occurrence -/

/-- The first occurrence of a pattern in a text, with what stands before it and behind it. -/
structure FirstAt (pattern before after s : List Char) : Prop where
  eq : s = before ++ pattern ++ after
  first : ∀ b a, s = b ++ pattern ++ a → before.length ≤ b.length

theorem FirstAt.occurs {p before after s : List Char} (h : FirstAt p before after s) : p <:+: s :=
  ⟨before, after, h.eq.symm⟩

theorem exists_cutAt (p b a : List Char) : ∃ cut, cutAt p (b ++ p ++ a) = some cut := by
  induction b with
  | nil =>
    have hp : p.isPrefixOf (p ++ a) = true := List.isPrefixOf_iff_prefix.2 (List.prefix_append _ _)
    rw [List.nil_append]
    cases hs : p ++ a with
    | nil =>
      obtain ⟨rfl, -⟩ := List.append_eq_nil_iff.1 hs
      exact ⟨_, rfl⟩
    | cons c r =>
      rw [hs] at hp
      exact ⟨_, by rw [cutAt, if_pos hp]⟩
  | cons c b ih =>
    obtain ⟨cut, hcut⟩ := ih
    rw [List.cons_append, List.cons_append, cutAt]
    split
    · exact ⟨_, rfl⟩
    · exact ⟨_, by rw [hcut]; rfl⟩

theorem firstAt_of_cutAt {p s before after : List Char} (h : cutAt p s = some (before, after)) :
    FirstAt p before after s := by
  refine ⟨append_of_cutAt h, ?_⟩
  induction s generalizing before with
  | nil =>
    rw [(List.append_eq_nil_iff.1 (List.append_eq_nil_iff.1 (append_of_cutAt h).symm).1).1]
    exact fun b a _ => Nat.zero_le _
  | cons c r ih =>
    rw [cutAt] at h
    split at h
    · obtain ⟨rfl, -⟩ := Prod.mk.inj (Option.some.inj h)
      exact fun b a _ => Nat.zero_le _
    · rename_i hp
      obtain ⟨⟨before, after⟩, hcut, hpair⟩ := Option.map_eq_some_iff.1 h
      obtain ⟨rfl, rfl⟩ := Prod.mk.inj hpair
      intro b a hs
      cases b with
      | nil => exact absurd (List.isPrefixOf_iff_prefix.2 (hs ▸ List.prefix_append _ _)) hp
      | cons d b =>
        obtain ⟨-, hr⟩ := List.cons.inj hs
        exact Nat.succ_le_succ (ih hcut b a hr)

/-- A text is cut at the first occurrence of the pattern. -/
theorem cutAt_eq_some_iff {p s before after : List Char} :
    cutAt p s = some (before, after) ↔ FirstAt p before after s := by
  refine ⟨firstAt_of_cutAt, fun h => ?_⟩
  obtain ⟨⟨b, a⟩, hcut⟩ := exists_cutAt p before after
  rw [← h.eq] at hcut
  have hfirst := firstAt_of_cutAt hcut
  have hlength : before.length = b.length :=
    Nat.le_antisymm (h.first b a hfirst.eq) (hfirst.first before after h.eq)
  obtain ⟨hb, rfl⟩ := List.append_inj (h.eq.symm.trans hfirst.eq) (by simp [hlength])
  obtain ⟨rfl, -⟩ := List.append_inj hb hlength
  exact hcut

theorem occursIn_iff {p s : List Char} : occursIn p s = true ↔ p <:+: s := by
  rw [occursIn, Option.isSome_iff_exists]
  constructor
  · rintro ⟨⟨b, a⟩, hcut⟩
    exact ⟨b, a, (append_of_cutAt hcut).symm⟩
  · rintro ⟨b, a, rfl⟩
    exact exists_cutAt p b a

/-- A single character is found where it occurs first. -/
theorem cutAt_char_eq_some_iff {c : Char} {s before after : List Char} :
    cutAt [c] s = some (before, after) ↔ s = before ++ c :: after ∧ c ∉ before := by
  constructor
  · intro h
    obtain ⟨hs, hfirst⟩ := firstAt_of_cutAt h
    rw [List.append_assoc, List.singleton_append] at hs
    refine ⟨hs, fun hc => ?_⟩
    obtain ⟨b, a, rfl⟩ := List.append_of_mem hc
    have hle := hfirst b (a ++ c :: after) (by rw [hs]; simp)
    rw [List.length_append, List.length_cons] at hle
    omega
  · rintro ⟨rfl, hc⟩
    exact cutAt_char hc after

/-- A text is taken apart at its first occurrence of a character in one way only. -/
theorem append_cons_inj_of_first {c : Char} {a b x y : List Char} (ha : c ∉ a) (hb : c ∉ b)
    (h : a ++ c :: x = b ++ c :: y) : a = b ∧ x = y := by
  have hcut := cutAt_char ha x
  rw [h, cutAt_char hb] at hcut
  obtain ⟨rfl, rfl⟩ := Prod.mk.inj (Option.some.inj hcut)
  exact ⟨rfl, rfl⟩

theorem inside?_eq_some_iff {a b : Char} {s inner : List Char} :
    inside? a b s = some inner ↔ s = a :: inner ++ [b] := by
  refine ⟨fun h => ?_, fun h => h ▸ inside?_append a b inner⟩
  cases s with
  | nil => cases h
  | cons c r =>
    rw [inside?] at h
    split at h
    · rename_i hends
      obtain ⟨rfl, hlast⟩ := hends
      obtain rfl := Option.some.inj h
      obtain ⟨t, rfl⟩ := List.getLast?_eq_some_iff.1 hlast
      rw [List.dropLast_concat, List.cons_append]
    · cases h

/-! ### Blanks around a text -/

/-- A text of blanks only. -/
def AllBlank (s : List Char) : Prop := ∀ c ∈ s, isBlank c = true

instance (s : List Char) : Decidable (AllBlank s) := List.decidableBAll _ _

theorem AllBlank.append {s t : List Char} (hs : AllBlank s) (ht : AllBlank t) :
    AllBlank (s ++ t) := fun c hc => (List.mem_append.1 hc).elim (hs c) (ht c)

theorem AllBlank.not_mem {s : List Char} (h : AllBlank s) {c : Char} (hc : isBlank c = false) :
    c ∉ s := fun hmem => absurd (h c hmem) (by rw [hc]; decide)

theorem isAlpha_of_isBlank {c : Char} (h : isBlank c = true) : c.isAlpha = false := by
  rw [Bool.eq_false_iff]
  intro halpha
  have hletter : (65 ≤ c.toNat ∧ c.toNat ≤ 90) ∨ (97 ≤ c.toNat ∧ c.toNat ≤ 122) := by
    obtain hupper | hlower := Bool.or_eq_true_iff.1 halpha
    · have hrange := of_decide_eq_true hupper
      exact .inl hrange
    · obtain ⟨hleast, hgreatest⟩ := Bool.and_eq_true_iff.1 hlower
      exact .inr ⟨of_decide_eq_true hleast, of_decide_eq_true hgreatest⟩
  simp only [isBlank, Bool.or_eq_true, Bool.and_eq_true, decide_eq_true_eq, beq_iff_eq] at h
  omega

/-- The first text is the second one with blanks around it. -/
def Padded (s t : List Char) : Prop := ∃ a b, t = a ++ s ++ b ∧ AllBlank a ∧ AllBlank b

theorem Padded.refl (s : List Char) : Padded s s :=
  ⟨[], [], by simp, List.forall_mem_nil _, List.forall_mem_nil _⟩

theorem Padded.append_left {a s t : List Char} (ha : AllBlank a) (h : Padded s t) :
    Padded s (a ++ t) := by
  obtain ⟨b, c, rfl, hb, hc⟩ := h
  exact ⟨a ++ b, c, by simp only [List.append_assoc], ha.append hb, hc⟩

theorem Padded.append_right {b s t : List Char} (h : Padded s t) (hb : AllBlank b) :
    Padded s (t ++ b) := by
  obtain ⟨a, c, rfl, ha, hc⟩ := h
  exact ⟨a, c ++ b, by simp only [List.append_assoc], ha, hc.append hb⟩

/-- A character that is not blank stands in the text between the blanks. -/
theorem Padded.mem {s t : List Char} (h : Padded s t) {c : Char} (hc : isBlank c = false)
    (hmem : c ∈ t) : c ∈ s := by
  obtain ⟨a, b, rfl, ha, hb⟩ := h
  rcases List.mem_append.1 hmem with hmem | hmem
  · exact (List.mem_append.1 hmem).resolve_left (ha.not_mem hc)
  · exact absurd hmem (hb.not_mem hc)

theorem padded_trim (t : List Char) : Padded (trim t) t := by
  have hstart : t = t.takeWhile isBlank ++ trimStart t := List.takeWhile_append_dropWhile.symm
  have hend : trimStart t =
      trim t ++ ((trimStart t).reverse.takeWhile isBlank).reverse := by
    rw [trim, trimEnd, ← List.reverse_append, List.takeWhile_append_dropWhile, List.reverse_reverse]
  refine ⟨t.takeWhile isBlank, ((trimStart t).reverse.takeWhile isBlank).reverse, ?_,
    List.all_eq_true.1 List.all_takeWhile, fun c hc => ?_⟩
  · rw [List.append_assoc, ← hend]
    exact hstart
  · exact List.all_eq_true.1 List.all_takeWhile c (List.mem_reverse.1 hc)

theorem trim_append_of_blanks_right {b : List Char} (hb : AllBlank b) (s : List Char) :
    trim (s ++ b) = trim s := by
  induction b generalizing s with
  | nil => rw [List.append_nil]
  | cons c b ih =>
    obtain ⟨hc, hb⟩ := List.forall_mem_cons.1 hb
    rw [← List.singleton_append, ← List.append_assoc, ih hb, trim_append_of_blank hc]

theorem Padded.trim_eq {s t : List Char} (h : Padded s t) : trim t = trim s := by
  obtain ⟨a, b, rfl, ha, hb⟩ := h
  rw [trim_append_of_blanks_right hb, trim_append_of_blanks ha]

/-! ### Words -/

theorem words_cons_of_blank {c : Char} (hc : isBlank c = true) (s : List Char) :
    words (c :: s) = words s := by
  rw [words, splitWhere, if_pos hc, List.filter_cons_of_neg (by simp), words]

theorem words_append_of_blanks {b : List Char} (hb : AllBlank b) (s : List Char) :
    words (b ++ s) = words s := by
  induction b with
  | nil => rfl
  | cons c b ih =>
    obtain ⟨hc, hb⟩ := List.forall_mem_cons.1 hb
    rw [List.cons_append, words_cons_of_blank hc, ih hb]

theorem words_of_no_blank {s : List Char} (hne : s ≠ []) (hs : ∀ c ∈ s, isBlank c = false) :
    words s = [s] := by
  rw [words, splitWhere_of_none hs, List.filter_cons_of_pos (by simpa using hne), List.filter_nil]

/-- Blanks end a word. -/
theorem words_append {s b : List Char} (hne : s ≠ []) (hs : ∀ c ∈ s, isBlank c = false)
    (hbne : b ≠ []) (hb : AllBlank b) (r : List Char) : words (s ++ b ++ r) = s :: words r := by
  cases b with
  | nil => exact absurd rfl hbne
  | cons c b =>
    obtain ⟨hc, hb⟩ := List.forall_mem_cons.1 hb
    have hrest := words_append_of_blanks hb r
    unfold words at hrest ⊢
    rw [List.append_assoc, List.cons_append, splitWhere_append_cons hs hc,
      List.filter_cons_of_pos (by simpa using hne), hrest]

end Draftboard.Text
