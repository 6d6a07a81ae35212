import Draftboard.Proofs.Picture.Coordinate
import Draftboard.Proofs.Text.Parts

/-!
# Draftboard.Proofs.Picture.Extract

The parts that are taken out of a body.

* A vector is two literals in parentheses with a comma between them, and blanks around each
  (`readVector_eq_ok_iff_vectorText`). It is taken at the first opening parenthesis of a text
  (`takeVector_eq_ok_iff`).
* The text of a label is taken at the first opening brace (`braced?_eq_some_iff`).
* A radius is a number and a unit in parentheses, and nothing else (`readRadius_eq_ok_iff`).
-/

namespace Draftboard

open Text

namespace Picture

/-! ### Vectors -/

/-- The text of a vector: two literals in parentheses. -/
def VectorLiteral (p : Point Float) (v : List Char) : Prop :=
  ∃ x y u w, v = '(' :: (u ++ ',' :: w) ++ [')'] ∧ Padded x u ∧ Padded y w ∧
    Literal.read? x = some p.x ∧ Literal.read? y = some p.y

/-- A vector with blanks around it. -/
def VectorText (p : Point Float) (t : List Char) : Prop := ∃ v, VectorLiteral p v ∧ Padded v t

variable {p : Point Float} {v t : List Char}

theorem vectorLiteral_of_literals {x y : List Char} (hx : Literal.read? x = some p.x)
    (hy : Literal.read? y = some p.y) : VectorLiteral p ('(' :: (x ++ ',' :: y) ++ [')']) :=
  ⟨x, y, x, y, rfl, .refl x, .refl y, hx, hy⟩

theorem trim_parentheses (inner : List Char) :
    trim ('(' :: inner ++ [')']) = '(' :: inner ++ [')'] := by
  refine trim_of_ends (fun c hc => ?_) (fun c hc => ?_)
  · obtain rfl := Option.some.inj hc
    decide
  · rw [List.getLast?_concat] at hc
    obtain rfl := Option.some.inj hc
    decide

theorem VectorLiteral.trim_eq (h : VectorLiteral p v) : trim v = v := by
  obtain ⟨x, y, u, w, rfl, -⟩ := h
  exact trim_parentheses _

/-- A text of literals, commas and blanks. -/
def IsCoordinates (s : List Char) : Prop := ∀ c ∈ s, isBlank c = true ∨ c ∈ ',' :: Literal.characters

theorem IsCoordinates.append {s u : List Char} (hs : IsCoordinates s) (hu : IsCoordinates u) :
    IsCoordinates (s ++ u) := fun c hc => (List.mem_append.1 hc).elim (hs c) (hu c)

theorem isCoordinates_of_blanks {s : List Char} (h : AllBlank s) : IsCoordinates s :=
  fun c hc => .inl (h c hc)

theorem isCoordinates_of_valid {s : List Char} (h : Literal.Valid s) : IsCoordinates s :=
  fun _ hc => .inr (List.mem_cons_of_mem _ (h.subset hc))

theorem isCoordinates_of_padded {s u : List Char} (hs : Literal.Valid s) (h : Padded s u) :
    IsCoordinates u := by
  obtain ⟨a, b, rfl, ha, hb⟩ := h
  exact ((isCoordinates_of_blanks ha).append (isCoordinates_of_valid hs)).append
    (isCoordinates_of_blanks hb)

/-- Two such texts with a comma between them are one. -/
theorem IsCoordinates.append_comma {s u : List Char} (hs : IsCoordinates s) (hu : IsCoordinates u) :
    IsCoordinates (s ++ ',' :: u) :=
  hs.append fun c hc => (List.mem_cons.1 hc).elim (fun h => .inr (h ▸ List.mem_cons_self)) (hu c)

theorem IsCoordinates.not_mem {s : List Char} (h : IsCoordinates s) {c : Char}
    (hblank : isBlank c = false) (hc : c ∉ ',' :: Literal.characters) : c ∉ s := by
  intro hmem
  rcases h c hmem with hb | hmem
  · rw [hblank] at hb
    cases hb
  · exact hc hmem

theorem VectorLiteral.exists_inner (h : VectorLiteral p v) :
    ∃ inner, v = '(' :: inner ++ [')'] ∧ IsCoordinates inner := by
  obtain ⟨x, y, u, w, rfl, hu, hw, hx, hy⟩ := h
  exact ⟨u ++ ',' :: w, rfl, (isCoordinates_of_padded (Literal.valid_of_read? hx) hu).append_comma
    (isCoordinates_of_padded (Literal.valid_of_read? hy) hw)⟩

theorem VectorLiteral.not_mem (h : VectorLiteral p v) {c : Char} (hblank : isBlank c = false)
    (hc : c ∉ '(' :: ')' :: ',' :: Literal.characters) : c ∉ v := by
  obtain ⟨hopen, hc⟩ := List.ne_and_not_mem_of_not_mem_cons hc
  obtain ⟨hclose, hc⟩ := List.ne_and_not_mem_of_not_mem_cons hc
  obtain ⟨inner, rfl, hinner⟩ := h.exists_inner
  intro hmem
  rcases List.mem_append.1 hmem with hmem | hmem
  · rcases List.mem_cons.1 hmem with rfl | hmem
    · exact hopen rfl
    · exact hinner.not_mem hblank hc hmem
  · exact hclose (List.mem_singleton.1 hmem)

theorem VectorLiteral.count_open (h : VectorLiteral p v) : v.count '(' = 1 := by
  obtain ⟨inner, rfl, hinner⟩ := h.exists_inner
  have hnone := List.count_eq_zero_of_not_mem (hinner.not_mem (c := '(') (by decide) (by decide))
  rw [List.count_append, List.count_cons_self, hnone]
  decide

/-- A text is read as a vector exactly if it is the text of one, with blanks around it. -/
theorem readVector_eq_ok_iff_vectorText : readVector t = .ok p ↔ VectorText p t := by
  rw [readVector_eq_ok_iff]
  constructor
  · rintro ⟨literals, hliterals, hx, hy⟩
    obtain ⟨inner, hinner, hparts⟩ := Option.bind_eq_some_iff.1 hliterals
    obtain ⟨⟨u, w⟩, hcut, rfl⟩ := Option.map_eq_some_iff.1 hparts
    obtain ⟨rfl, -⟩ := cutAt_char_eq_some_iff.1 hcut
    have htrim := inside?_eq_some_iff.1 hinner
    exact ⟨trim t, ⟨_, _, u, w, htrim, padded_trim u, padded_trim w, hx, hy⟩, padded_trim t⟩
  · rintro ⟨v, hv, hpadded⟩
    have htrim : trim t = v := hpadded.trim_eq.trans hv.trim_eq
    obtain ⟨x, y, u, w, rfl, hu, hw, hx, hy⟩ := hv
    have hvalid := Literal.valid_of_read? hx
    have hcomma : ',' ∉ u := fun hc => hvalid.not_mem (by decide) (hu.mem (by decide) hc)
    refine ⟨(x, y), ?_, hx, hy⟩
    rw [coordinates?, htrim, inside?_append, Option.bind_some, cutAt_char hcomma, Option.map_some,
      hu.trim_eq, hw.trim_eq, trim_of_no_blank hvalid.not_blank,
      trim_of_no_blank (Literal.valid_of_read? hy).not_blank]

theorem readVector_literal (h : VectorLiteral p v) : readVector v = .ok p :=
  readVector_eq_ok_iff_vectorText.2 ⟨v, h, .refl v⟩

/-- A text in parentheses is read as a vector if it is one, without blanks around it. -/
theorem vectorLiteral_of_readVector {inner : List Char}
    (h : readVector ('(' :: inner ++ [')']) = .ok p) : VectorLiteral p ('(' :: inner ++ [')']) := by
  obtain ⟨v, hv, hpadded⟩ := readVector_eq_ok_iff_vectorText.1 h
  have heq : '(' :: inner ++ [')'] = v := by
    rw [← trim_parentheses, hpadded.trim_eq, hv.trim_eq]
  rwa [heq]

/-- A vector is taken at the first opening parenthesis, and nothing is asked of what is before it. -/
theorem takeVector_eq_ok_iff {text rest : List Char} :
    takeVector text = .ok (p, rest) ↔
      ∃ gap v, text = gap ++ v ++ rest ∧ '(' ∉ gap ∧ VectorLiteral p v := by
  constructor
  · intro h
    unfold takeVector at h
    split at h
    · cases h
    · rename_i gap afterOpen hopen
      split at h
      · cases h
      · rename_i inner after hclose
        split at h
        · rename_i hread
          obtain ⟨rfl, rfl⟩ := Prod.mk.inj (Except.ok.inj h)
          obtain ⟨rfl, hgap⟩ := cutAt_char_eq_some_iff.1 hopen
          obtain ⟨rfl, -⟩ := cutAt_char_eq_some_iff.1 hclose
          refine ⟨gap, '(' :: inner ++ [')'], ?_, hgap, vectorLiteral_of_readVector hread⟩
          simp only [List.append_assoc, List.cons_append, List.nil_append]
        · cases h
  · rintro ⟨gap, v, rfl, hgap, hv⟩
    have hread := readVector_literal hv
    obtain ⟨inner, rfl, hinner⟩ := hv.exists_inner
    have hopen : cutAt ['('] (gap ++ ('(' :: inner ++ [')']) ++ rest) =
        some (gap, inner ++ ')' :: rest) := by
      have htext : gap ++ ('(' :: inner ++ [')']) ++ rest = gap ++ '(' :: (inner ++ ')' :: rest) := by
        simp only [List.append_assoc, List.cons_append, List.nil_append]
      rw [htext, cutAt_char hgap]
    have hclose : cutAt [')'] (inner ++ ')' :: rest) = some (inner, rest) :=
      cutAt_char (hinner.not_mem (by decide) (by decide)) rest
    rw [takeVector, hopen]
    dsimp only
    rw [hclose]
    dsimp only
    rw [hread]

/-! ### Braces -/

/-- The text of a label is taken at the first opening brace. -/
theorem braced?_eq_some_iff {rest text : List Char} :
    braced? rest = some text ↔
      ∃ gap after, rest = gap ++ '{' :: text ++ '}' :: after ∧ '{' ∉ gap ∧
        Enclosed { depth := 1 } text := by
  have hdepth : 0 < ({ depth := 1 } : BraceScan).depth := Nat.one_pos
  rw [braced?, Option.bind_eq_some_iff]
  constructor
  · rintro ⟨⟨gap, afterOpen⟩, hopen, hclose⟩
    obtain ⟨rfl, hgap⟩ := cutAt_char_eq_some_iff.1 hopen
    obtain ⟨after, hafter, henclosed⟩ := (upToClosing?_eq_some_iff hdepth).1 hclose
    refine ⟨gap, after, ?_, hgap, henclosed⟩
    rw [hafter, List.append_assoc, List.cons_append]
  · rintro ⟨gap, after, rfl, hgap, henclosed⟩
    refine ⟨(gap, text ++ '}' :: after), ?_, (upToClosing?_eq_some_iff hdepth).2 ⟨_, rfl, henclosed⟩⟩
    rw [List.append_assoc, List.cons_append, cutAt_char hgap]

/-! ### Lengths -/

/-- A text up to its first letter, and from there on. -/
def splitUnit (s : List Char) : List Char × List Char :=
  (s.takeWhile fun c => !c.isAlpha, s.dropWhile fun c => !c.isAlpha)

theorem splitUnit_eq_iff {s u w : List Char} :
    splitUnit s = (u, w) ↔ s = u ++ w ∧ (∀ c ∈ u, c.isAlpha = false) ∧
      ∀ c, w.head? = some c → c.isAlpha = true := by
  constructor
  · intro h
    obtain ⟨rfl, rfl⟩ := Prod.mk.inj h
    refine ⟨List.takeWhile_append_dropWhile.symm, fun c hc => ?_, fun c hc => ?_⟩
    · simpa using List.all_eq_true.1 List.all_takeWhile c hc
    · have := List.head?_dropWhile_not (fun c : Char => !c.isAlpha) s
      rw [hc] at this
      simpa using this
  · rintro ⟨rfl, hu, hw⟩
    obtain ⟨ht, hd⟩ := takeWhile_append_of_head (p := fun c => !c.isAlpha)
      (fun c hc => by rw [hu c hc]; rfl) (fun c hc => by rw [hw c hc]; rfl)
    rw [splitUnit, ht, hd]

/-- The blanks around a text do not count where it is split at its first letter. -/
theorem trim_splitUnit_of_padded {s t : List Char} (h : Padded s t) :
    trim (splitUnit t).1 = trim (splitUnit s).1 ∧ trim (splitUnit t).2 = trim (splitUnit s).2 := by
  obtain ⟨a, b, rfl, ha, hb⟩ := h
  obtain ⟨⟨u, w⟩, hsplit⟩ : ∃ parts, splitUnit s = parts := ⟨_, rfl⟩
  rw [hsplit]
  obtain ⟨rfl, hu, hw⟩ := splitUnit_eq_iff.1 hsplit
  have hleft : ∀ c ∈ a ++ u, c.isAlpha = false := fun c hc =>
    (List.mem_append.1 hc).elim (fun hc => isAlpha_of_isBlank (ha c hc)) (hu c)
  cases w with
  -- Without a letter all of the text stands before the first one.
  | nil =>
    have hall : splitUnit (a ++ (u ++ []) ++ b) = (a ++ u ++ b, []) := by
      refine splitUnit_eq_iff.2 ⟨by simp, fun c hc => ?_, by simp⟩
      exact (List.mem_append.1 hc).elim (hleft c) fun hc => isAlpha_of_isBlank (hb c hc)
    rw [hall, trim_append_of_blanks_right hb, trim_append_of_blanks ha]
    exact ⟨rfl, rfl⟩
  | cons c r =>
    have hcut : splitUnit (a ++ (u ++ c :: r) ++ b) = (a ++ u, c :: r ++ b) :=
      splitUnit_eq_iff.2 ⟨by simp, hleft, hw⟩
    rw [hcut, trim_append_of_blanks_right hb, trim_append_of_blanks ha]
    exact ⟨rfl, rfl⟩

theorem unitFactor_congr {s t : List Char} (h : trim s = trim t) : unitFactor s = unitFactor t := by
  rw [unitFactor, unitFactor, h]

/-- The text of a length: a number without a letter and a unit, which starts with one, in
parentheses. The unit may be missing. -/
def LengthText (length : Float) (t : List Char) : Prop :=
  ∃ number u w value factor, Padded ('(' :: (u ++ w) ++ [')']) t ∧ Padded number u ∧
    (∀ c ∈ u, c.isAlpha = false) ∧ (∀ c, w.head? = some c → c.isAlpha = true) ∧
    Literal.read? number = some value ∧ ¬ value < 0 ∧ unitFactor w = .ok factor ∧
    length = value * factor

theorem readRadius_eq_ok_iff_splitUnit {t : List Char} {length : Float} :
    readRadius t = .ok length ↔ ∃ inner value factor, trim t = '(' :: inner ++ [')'] ∧
      Literal.read? (trim (splitUnit inner).1) = some value ∧ ¬ value < 0 ∧
      unitFactor (splitUnit inner).2 = .ok factor ∧ length = value * factor := by
  have hparts : ∀ inner, trim (splitUnit inner).1 = trim (splitUnit (trim inner)).1 ∧
      unitFactor (splitUnit inner).2 = unitFactor (splitUnit (trim inner)).2 := fun inner =>
    (trim_splitUnit_of_padded (padded_trim inner)).imp id unitFactor_congr
  constructor
  · intro h
    unfold readRadius at h
    split at h
    · cases h
    · rename_i inner hinner
      dsimp only at h
      split at h
      · cases h
      · rename_i value hvalue
        split at h
        · cases h
        · rename_i hsign
          split at h
          · rename_i factor hfactor
            refine ⟨inner, value, factor, inside?_eq_some_iff.1 hinner, ?_, hsign, ?_,
              (Except.ok.inj h).symm⟩
            · rw [(hparts inner).1]
              exact hvalue
            · rw [(hparts inner).2]
              exact hfactor
          · cases h
  · rintro ⟨inner, value, factor, ht, hvalue, hsign, hfactor, rfl⟩
    rw [(hparts inner).1] at hvalue
    rw [(hparts inner).2] at hfactor
    unfold splitUnit at hvalue hfactor
    rw [readRadius, ht, inside?_append]
    dsimp only
    rw [hvalue]
    dsimp only
    rw [if_neg hsign, hfactor]

/-- A text is read as a radius exactly if it is the text of a length. -/
theorem readRadius_eq_ok_iff {t : List Char} {length : Float} :
    readRadius t = .ok length ↔ LengthText length t := by
  rw [readRadius_eq_ok_iff_splitUnit]
  constructor
  · rintro ⟨inner, value, factor, ht, hvalue, hsign, hfactor, rfl⟩
    obtain ⟨⟨u, w⟩, hsplit⟩ : ∃ parts, splitUnit inner = parts := ⟨_, rfl⟩
    rw [hsplit] at hvalue hfactor
    obtain ⟨rfl, hu, hw⟩ := splitUnit_eq_iff.1 hsplit
    exact ⟨trim u, u, w, value, factor, ht ▸ padded_trim t, padded_trim u, hu, hw, hvalue, hsign,
      hfactor, rfl⟩
  · rintro ⟨number, u, w, value, factor, ht, hnumber, hu, hw, hvalue, hsign, hfactor, rfl⟩
    have hsplit := splitUnit_eq_iff.2 ⟨rfl, hu, hw⟩
    refine ⟨u ++ w, value, factor, ht.trim_eq.trans (trim_parentheses _), ?_, hsign, ?_, rfl⟩
    · rw [hsplit, hnumber.trim_eq, trim_of_no_blank (Literal.valid_of_read? hvalue).not_blank, hvalue]
    · rw [hsplit, hfactor]

end Picture

end Draftboard
