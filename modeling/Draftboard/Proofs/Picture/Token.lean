import Draftboard.Picture.Statement
import Draftboard.Proofs.Picture.Numeral

/-!
# Draftboard.Proofs.Picture.Token

The text of a literal, and where a path is split.

A literal is a sign or none, a word or digits with a point, and an exponent or none
(`Literal.Valid.exists_parts`). So it is made of a few characters only (`Literal.Valid.subset`): no
blank, comma or parenthesis is among them. A path is not split inside of it (`unbroken_of_valid`),
since each hyphen stands before a character of another kind.
-/

namespace Draftboard

open Text (isBlank sameIgnoringCase)

namespace Literal

variable {s : List Char}

/-- The text is a literal. -/
def Valid (s : List Char) : Prop := (read? s).isSome = true

instance (s : List Char) : Decidable (Valid s) := inferInstanceAs (Decidable (_ = _))

theorem valid_of_read? {x : Float} (h : read? s = some x) : Valid s := by
  rw [Valid, h]
  rfl

theorem Valid.read?_eq (h : Valid s) : read? s = some (value s) := by
  obtain ⟨x, hx⟩ := Option.isSome_iff_exists.1 h
  rw [value, hx]
  rfl

/-! ### Parts -/

/-- The signs, and none. -/
def signs : List (List Char) := [[], ['-'], ['+']]

theorem takeSign_eq (s : List Char) : ∃ sign ∈ signs, s = sign ++ (takeSign s).2 := by
  unfold takeSign
  split
  · exact ⟨['-'], by decide, rfl⟩
  · exact ⟨['+'], by decide, rfl⟩
  · exact ⟨[], by decide, rfl⟩

/-- The letters of the words, in both cases. -/
def wordCharacters : List Char := "afintyAFINTY".toList

theorem mem_wordCharacters {c : Char} (h : c.toLower ∈ "afinty".toList) : c ∈ wordCharacters := by
  unfold Char.toLower at h
  split at h
  · rename_i hupper
    obtain ⟨ha, hz⟩ := hupper
    rw [ge_iff_le, UInt32.le_iff_toNat_le] at ha
    rw [UInt32.le_iff_toNat_le] at hz
    change 65 ≤ c.toNat at ha
    change c.toNat ≤ 90 at hz
    have hc : c = Char.ofNat c.toNat := (Char.ofNat_toNat c).symm
    revert h
    generalize_proofs hvalid
    revert hvalid
    rw [hc]
    generalize c.toNat = n at ha hz
    interval_cases n <;> decide
  · exact (by decide : "afinty".toList ⊆ wordCharacters) h

theorem subset_wordCharacters {word : List Char} (hword : word ⊆ "afinty".toList)
    (hlower : word.map Char.toLower = word) (h : sameIgnoringCase s word = true) :
    s ⊆ wordCharacters := by
  intro c hc
  have hmem : c.toLower ∈ s.map Char.toLower := List.mem_map_of_mem hc
  rw [eq_of_beq h, hlower] at hmem
  exact mem_wordCharacters (hword hmem)

/-- The text of an exponent: a mark, a sign or none, and digits, or nothing at all. -/
def IsExponent (s : List Char) : Prop :=
  s = [] ∨ ∃ mark sign digits, s = mark :: (sign ++ digits) ∧ mark ∈ ['e', 'E'] ∧ sign ∈ signs ∧
    digits ≠ [] ∧ digits ⊆ decimalDigits

theorem isExponent_of_readExponent? {e : Int} (h : readExponent? s = some e) : IsExponent s := by
  cases s with
  | nil => exact .inl rfl
  | cons mark r =>
    rw [readExponent?] at h
    split at h
    · rename_i hmark
      dsimp only at h
      split at h
      · rename_i hdigits
        obtain ⟨sign, hsign, hr⟩ := takeSign_eq r
        have hmem : mark ∈ ['e', 'E'] := by simpa using hmark
        refine .inr ⟨mark, sign, (takeSign r).2, by rw [← hr], hmem, hsign, hdigits.1, fun c hc => ?_⟩
        exact isDigit_iff.1 (List.all_eq_true.1 hdigits.2 c hc)
      · cases h
    · cases h

/-- The characters of a literal between the sign and the exponent. -/
def mantissaCharacters : List Char := wordCharacters ++ '.' :: decimalDigits

theorem exists_of_readDecimal? {d : Decimal} (h : readDecimal? s = some d) :
    ∃ mantissa exponent, s = mantissa ++ exponent ∧ mantissa ≠ [] ∧
      mantissa ⊆ '.' :: decimalDigits ∧ IsExponent exponent := by
  have hdigits : ∀ t : List Char, t.takeWhile Char.isDigit ⊆ '.' :: decimalDigits := fun t c hc =>
    List.mem_cons_of_mem _ (isDigit_iff.1 (List.all_eq_true.1 List.all_takeWhile c hc))
  unfold readDecimal? at h
  dsimp only at h
  split at h
  · cases h
  · rename_i hne
    obtain ⟨e, he, -⟩ := Option.map_eq_some_iff.1 h
    have hs : s = s.takeWhile Char.isDigit ++ s.dropWhile Char.isDigit :=
      List.takeWhile_append_dropWhile.symm
    have hexponent := isExponent_of_readExponent? he
    unfold takeFraction at hne hexponent
    split at hexponent
    · rename_i r hpoint
      refine ⟨s.takeWhile Char.isDigit ++ '.' :: r.takeWhile Char.isDigit,
        r.dropWhile Char.isDigit, ?_, by simp, ?_, hexponent⟩
      · rw [List.append_assoc, List.cons_append, List.takeWhile_append_dropWhile, ← hpoint, ← hs]
      · exact List.append_subset.2 ⟨hdigits s, List.cons_subset.2 ⟨List.mem_cons_self, hdigits r⟩⟩
    · rename_i hpoint
      refine ⟨s.takeWhile Char.isDigit, s.dropWhile Char.isDigit, hs, fun hnil => hne ⟨hnil, ?_⟩,
        hdigits s, hexponent⟩
      split
      · rename_i hr
        exact absurd hr (hpoint _)
      · rfl

/-- The parts of a literal. -/
theorem Valid.exists_parts (h : Valid s) :
    ∃ sign mantissa exponent, s = sign ++ mantissa ++ exponent ∧ sign ∈ signs ∧ mantissa ≠ [] ∧
      mantissa ⊆ mantissaCharacters ∧ IsExponent exponent := by
  obtain ⟨sign, hsign, hs⟩ := takeSign_eq s
  have hword : ∀ word : List Char, word ≠ [] → word ⊆ "afinty".toList → word.map Char.toLower = word →
      sameIgnoringCase (takeSign s).2 word = true → (takeSign s).2 ≠ [] ∧
        (takeSign s).2 ⊆ mantissaCharacters := by
    intro word hne hword hlower hsame
    refine ⟨fun hnil => hne ?_, List.Subset.trans (subset_wordCharacters hword hlower hsame)
      (List.subset_append_left _ _)⟩
    rw [← hlower, ← eq_of_beq hsame, hnil, List.map_nil]
  have hmagnitude : (readMagnitude? (takeSign s).2).isSome = true := by
    rwa [← Option.isSome_map (f := fun v => if (takeSign s).1 then -v else v)]
  suffices hparts : ∃ mantissa exponent, (takeSign s).2 = mantissa ++ exponent ∧ mantissa ≠ [] ∧
      mantissa ⊆ mantissaCharacters ∧ IsExponent exponent by
    obtain ⟨mantissa, exponent, hr, hparts⟩ := hparts
    exact ⟨sign, mantissa, exponent, by rw [List.append_assoc, ← hr, ← hs], hsign, hparts⟩
  unfold readMagnitude? at hmagnitude
  split at hmagnitude
  · rename_i hsame
    have hparts := (Bool.or_eq_true_iff.1 hsame).elim
      (hword "inf".toList (by decide) (by decide) (by decide))
      (hword "infinity".toList (by decide) (by decide) (by decide))
    exact ⟨_, [], (List.append_nil _).symm, hparts.1, hparts.2, .inl rfl⟩
  · split at hmagnitude
    · rename_i hsame
      have hparts := hword "nan".toList (by decide) (by decide) (by decide) hsame
      exact ⟨_, [], (List.append_nil _).symm, hparts.1, hparts.2, .inl rfl⟩
    · rw [Option.isSome_map] at hmagnitude
      obtain ⟨d, hd⟩ := Option.isSome_iff_exists.1 hmagnitude
      obtain ⟨mantissa, exponent, hr, hne, hsubset, hexponent⟩ := exists_of_readDecimal? hd
      exact ⟨mantissa, exponent, hr, hne, List.Subset.trans hsubset (List.subset_append_right _ _),
        hexponent⟩

/-! ### Characters -/

/-- The characters of literals. -/
def characters : List Char := '-' :: '+' :: 'e' :: 'E' :: mantissaCharacters

theorem Valid.subset (h : Valid s) : s ⊆ characters := by
  have hsigns : ∀ sign ∈ signs, sign ⊆ characters := by decide
  obtain ⟨sign, mantissa, exponent, rfl, hsign, -, hmantissa, hexponent⟩ := h.exists_parts
  have hsubset : exponent ⊆ characters := by
    rcases hexponent with rfl | ⟨mark, sign', digits, rfl, hmark, hsign', -, hdigits⟩
    · exact List.nil_subset _
    · refine List.cons_subset.2 ⟨(by decide : ['e', 'E'] ⊆ characters) hmark,
        List.append_subset.2 ⟨hsigns sign' hsign', List.Subset.trans hdigits (by decide)⟩⟩
  exact List.append_subset.2 ⟨List.append_subset.2 ⟨hsigns sign hsign,
    List.Subset.trans hmantissa (by decide)⟩, hsubset⟩

theorem Valid.not_mem (h : Valid s) {c : Char} (hc : c ∉ characters) : c ∉ s :=
  fun hs => hc (h.subset hs)

theorem Valid.not_blank (h : Valid s) : ∀ c ∈ s, isBlank c = false := fun _ hc =>
  Text.eq_false_of_any (by decide : characters.any isBlank = false) (h.subset hc)

theorem Valid.ne_nil (h : Valid s) : s ≠ [] := by
  rintro rfl
  exact absurd h (by decide)

end Literal

/-! ### Paths -/

namespace Picture

open Text

theorem pathPieces_ne_nil (s : List Char) : pathPieces s ≠ [] := by
  fun_cases pathPieces s with
  | case1 => simp
  | case2 => simp
  | case3 => exact consHead_ne_nil _ _

theorem pathPieces_cons {c : Char} {r : List Char} (h : c = '-' → r.head? ≠ some '-') :
    pathPieces (c :: r) = consHead c (pathPieces r) := by
  rw [pathPieces]
  rintro r' rfl rfl
  exact h rfl rfl

/-- A text that a path is not split in, nor at its end. -/
def Unbroken (s : List Char) : Prop := ∀ r, pathPieces (s ++ r) = appendHead s (pathPieces r)

theorem Unbroken.append {s t : List Char} (hs : Unbroken s) (ht : Unbroken t) :
    Unbroken (s ++ t) := by
  intro r
  rw [List.append_assoc, hs, ht, appendHead_appendHead]

theorem unbroken_of_not_mem {s : List Char} (h : '-' ∉ s) : Unbroken s := by
  induction s with
  | nil => exact fun r => (appendHead_nil (pathPieces_ne_nil r)).symm
  | cons c s ih =>
    obtain ⟨hc, hs⟩ := List.ne_and_not_mem_of_not_mem_cons h
    intro r
    rw [List.cons_append, pathPieces_cons fun h => absurd h.symm hc, ih hs, consHead_appendHead]

theorem pathPieces_hyphens (r : List Char) : pathPieces (['-', '-'] ++ r) = [] :: pathPieces r := by
  rw [List.cons_append, List.singleton_append, pathPieces]

theorem Unbroken.pathPieces_eq {s : List Char} (h : Unbroken s) : pathPieces s = [s] := by
  have hs := h []
  rwa [List.append_nil, pathPieces, appendHead, List.append_nil] at hs

theorem Unbroken.pathPieces_append {s : List Char} (h : Unbroken s) (r : List Char) :
    pathPieces (s ++ ['-', '-'] ++ r) = s :: pathPieces r := by
  rw [List.append_assoc, h, pathPieces_hyphens, appendHead, List.append_nil]

/-- Joining the pieces undoes splitting. -/
theorem joinWith_pathPieces (s : List Char) : joinWith ['-', '-'] (pathPieces s) = s := by
  fun_induction pathPieces s with
  | case1 => rfl
  | case2 r ih => rw [joinWith_cons (pathPieces_ne_nil r), ih]; rfl
  | case3 c r _ ih =>
    cases hr : pathPieces r with
    | nil => exact absurd hr (pathPieces_ne_nil r)
    | cons w ws => rw [consHead, cons_joinWith, ← hr, ih]

/-- Splitting undoes joining pieces that are not split themselves. -/
theorem pathPieces_joinWith {ss : List (List Char)} (hne : ss ≠ []) (h : ∀ s ∈ ss, Unbroken s) :
    pathPieces (joinWith ['-', '-'] ss) = ss := by
  induction ss with
  | nil => exact absurd rfl hne
  | cons s ss ih =>
    obtain ⟨hs, hss⟩ := List.forall_mem_cons.1 h
    by_cases hnil : ss = []
    · subst hnil
      exact hs.pathPieces_eq
    · rw [joinWith_cons hnil, hs.pathPieces_append, ih hnil hss]

/-- A hyphen before another character splits no path. -/
theorem unbroken_cons_hyphen {t : List Char} (hne : t ≠ []) (hhead : '-' ∉ t.head?)
    (h : Unbroken t) : Unbroken ('-' :: t) := by
  intro r
  have hr : (t ++ r).head? ≠ some '-' := by
    rw [List.head?_append_of_ne_nil _ hne]
    exact hhead
  rw [List.cons_append, pathPieces_cons fun _ => hr, h, consHead_appendHead]

theorem unbroken_sign_append {sign t : List Char} (hsign : sign ∈ Literal.signs) (hne : t ≠ [])
    (hhead : '-' ∉ t.head?) (h : Unbroken t) : Unbroken (sign ++ t) := by
  simp only [Literal.signs, List.mem_cons, List.not_mem_nil, or_false] at hsign
  rcases hsign with rfl | rfl | rfl
  · exact h
  · exact unbroken_cons_hyphen hne hhead h
  · exact (unbroken_of_not_mem (by decide)).append h

/-- A path is not split inside of a literal. -/
theorem unbroken_of_valid {s : List Char} (h : Literal.Valid s) : Unbroken s := by
  obtain ⟨sign, mantissa, exponent, rfl, hsign, hne, hmantissa, hexponent⟩ := h.exists_parts
  have hhyphen : '-' ∉ mantissa := fun hc => absurd (hmantissa hc) (by decide)
  have hunbroken : Unbroken exponent := by
    rcases hexponent with rfl | ⟨mark, sign', digits, rfl, hmark, hsign', hdne, hdigits⟩
    · exact unbroken_of_not_mem List.not_mem_nil
    · have hnot : '-' ∉ digits := fun hc => absurd (hdigits hc) (by decide)
      have hmark' : '-' ∉ [mark] := by
        rintro hc
        obtain rfl := List.mem_singleton.1 hc
        exact absurd hmark (by decide)
      exact (unbroken_of_not_mem hmark').append (unbroken_sign_append hsign' hdne
        (fun hc => hnot (List.mem_of_mem_head? hc)) (unbroken_of_not_mem hnot))
  rw [List.append_assoc]
  refine unbroken_sign_append hsign (by simp [hne]) ?_
    ((unbroken_of_not_mem hhyphen).append hunbroken)
  rw [List.head?_append_of_ne_nil _ hne]
  exact fun hc => hhyphen (List.mem_of_mem_head? hc)

end Picture

/-- A written number is a literal. -/
theorem IsNumeral.valid {s : List Char} (h : IsNumeral s) : Literal.Valid s :=
  Literal.valid_of_read? h.read?_eq

end Draftboard
