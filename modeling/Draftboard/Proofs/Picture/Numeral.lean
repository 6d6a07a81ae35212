import Mathlib.Tactic.IntervalCases
import Draftboard.Picture.Writer
import Draftboard.Number.Literal
import Draftboard.Proofs.Number.Binary
import Draftboard.Proofs.Text.Pieces

/-!
# Draftboard.Proofs.Picture.Numeral

The numbers of a picture text are read back.

A numeral (`IsNumeral`) is a sign or none and then figures that have a value. Coordinates and
percentages are written as numerals whatever number they are of (`isNumeral_coordinate`,
`isNumeral_wholeNumber`), and a finite radius as one that has no letters and is not read as a
negative number (`isRadius_fixedPoint`). All that the readers of points and modifiers ask of a
numeral is that it holds no blank and none of the characters that they split at.
-/

namespace Draftboard

/-! ### Figures -/

def decimalDigits : List Char := "0123456789".toList

theorem mem_decimalDigits {c : Char} (h : c.isDigit = true) : c ∈ decimalDigits := by
  have hc : c = Char.ofNat c.toNat := (Char.ofNat_toNat c).symm
  simp only [Char.isDigit, Bool.and_eq_true, decide_eq_true_eq, ge_iff_le,
    UInt32.le_iff_toNat_le] at h
  obtain ⟨h0, h9⟩ := h
  change 48 ≤ c.toNat at h0
  change c.toNat ≤ 57 at h9
  rw [hc]
  generalize c.toNat = n at h0 h9
  interval_cases n <;> decide

theorem isDigit_iff {c : Char} : c.isDigit = true ↔ c ∈ decimalDigits :=
  ⟨mem_decimalDigits, List.all_eq_true.1 (by decide : decimalDigits.all Char.isDigit = true) c⟩

/-- The characters of a written number after its sign. -/
def figures : List Char := decimalDigits ++ ".infNa".toList

/-- The text of a number: a minus sign or none, and then figures that have a value. -/
def IsNumeral (s : List Char) : Prop :=
  ∃ (negative : Bool) (rest : List Char), rest ⊆ figures ∧
    (Literal.readMagnitude? rest).isSome = true ∧
    s = (if negative then ['-'] else []) ++ rest

namespace Literal

/-- Digits with a point and further digits after them, if there are any. -/
def pointed (whole fraction : List Char) : List Char :=
  if fraction = [] then whole else whole ++ '.' :: fraction

/-- Digits are read as the decimal that they spell. -/
theorem readDecimal?_pointed {w f : List Char} (hne : w ≠ []) (hw : ∀ c ∈ w, c.isDigit = true)
    (hf : ∀ c ∈ f, c.isDigit = true) :
    readDecimal? (pointed w f) = some ⟨digitsValue (w ++ f), -(f.length : Int)⟩ := by
  unfold pointed readDecimal?
  split
  · rename_i hnil
    subst hnil
    obtain ⟨ht, hd⟩ := Text.takeWhile_append_of_head (r := []) hw (by simp)
    rw [List.append_nil] at ht hd
    simp [ht, hd, takeFraction, hne, readExponent?]
  · obtain ⟨ht, hd⟩ := Text.takeWhile_append_of_head (r := '.' :: f) hw (by simp)
    obtain ⟨ht', hd'⟩ := Text.takeWhile_append_of_head (r := []) hf (by simp)
    rw [List.append_nil] at ht' hd'
    simp [ht, hd, takeFraction, hne, readExponent?, ht', hd']

/-- Digits are none of the words that stand for a number. -/
theorem readMagnitude?_pointed {w f : List Char} (hne : w ≠ []) (hw : ∀ c ∈ w, c.isDigit = true)
    (hf : ∀ c ∈ f, c.isDigit = true) :
    readMagnitude? (pointed w f) =
      some (Decimal.toFloat ⟨digitsValue (w ++ f), -(f.length : Int)⟩) := by
  have hhead : ∃ c r, pointed w f = c :: r ∧ c.isDigit = true := by
    cases w with
    | nil => exact absurd rfl hne
    | cons c w =>
      refine ⟨c, if f = [] then w else w ++ '.' :: f, ?_, hw c List.mem_cons_self⟩
      unfold pointed
      split <;> rfl
  obtain ⟨c, r, hp, hc⟩ := hhead
  -- The words start with other characters.
  have hi : (c.toLower == 'i') = false :=
    Text.eq_false_of_any (by decide : decimalDigits.any (·.toLower == 'i') = false)
      (isDigit_iff.1 hc)
  have hn : (c.toLower == 'n') = false :=
    Text.eq_false_of_any (by decide : decimalDigits.any (·.toLower == 'n') = false)
      (isDigit_iff.1 hc)
  have hinf : Text.sameIgnoringCase (pointed w f) "inf".toList = false := by
    simp [hp, Text.sameIgnoringCase, beq_eq_false_iff_ne.1 hi]
  have hinfinity : Text.sameIgnoringCase (pointed w f) "infinity".toList = false := by
    simp [hp, Text.sameIgnoringCase, beq_eq_false_iff_ne.1 hi]
  have hnan : Text.sameIgnoringCase (pointed w f) "nan".toList = false := by
    simp [hp, Text.sameIgnoringCase, beq_eq_false_iff_ne.1 hn]
  rw [readMagnitude?, hinf, hinfinity, hnan, readDecimal?_pointed hne hw hf]
  rfl

theorem takeSign_of_figure {c : Char} (h : c ∈ figures) (r : List Char) :
    takeSign (c :: r) = (false, c :: r) := by
  rw [takeSign]
  · intro _ hh
    obtain rfl := (List.cons.inj hh).1
    exact absurd h (by decide)
  · intro _ hh
    obtain rfl := (List.cons.inj hh).1
    exact absurd h (by decide)

/-- The value of a literal with the sign that is written before it. -/
theorem read?_signed {s : List Char} (hne : s ≠ []) (hs : s ⊆ figures) (negative : Bool) :
    read? ((if negative then ['-'] else []) ++ s) =
      (readMagnitude? s).map fun v => if negative then -v else v := by
  cases s with
  | nil => exact absurd rfl hne
  | cons c r =>
    cases negative with
    | true => rfl
    | false => simp [read?, takeSign_of_figure (hs List.mem_cons_self)]

/-- The number that a literal spells. -/
def value (s : List Char) : Float := (read? s).getD nan

theorem ne_nil_of_readMagnitude? {s : List Char} (h : (readMagnitude? s).isSome = true) :
    s ≠ [] := by
  rintro rfl
  exact absurd h (by decide)

end Literal

namespace IsNumeral

variable {s : List Char}

/-- A written number is read. -/
theorem read?_eq (h : IsNumeral s) : Literal.read? s = some (Literal.value s) := by
  obtain ⟨negative, rest, hf, hv, rfl⟩ := h
  obtain ⟨v, hv'⟩ := Option.isSome_iff_exists.1 hv
  rw [Literal.value, Literal.read?_signed (Literal.ne_nil_of_readMagnitude? hv) hf, hv']
  rfl

theorem subset (h : IsNumeral s) : s ⊆ '-' :: figures := by
  obtain ⟨negative, rest, hf, -, rfl⟩ := h
  cases negative with
  | true => exact List.cons_subset_cons '-' hf
  | false => exact List.Subset.trans hf (List.subset_cons_self _ _)

theorem not_mem (h : IsNumeral s) {c : Char} (hc : c ∉ '-' :: figures) : c ∉ s :=
  fun hs => hc (h.subset hs)

theorem not_blank (h : IsNumeral s) : ∀ c ∈ s, Text.isBlank c = false := fun _ hc =>
  Text.eq_false_of_any (by decide : ('-' :: figures).any Text.isBlank = false) (h.subset hc)

end IsNumeral

/-! ### Written numbers -/

namespace Format

theorem isDigit_of_mem_padded {count n : Nat} {c : Char} (h : c ∈ padded count n) :
    c.isDigit = true := by
  rcases List.mem_append.1 h with hz | hd
  · rw [List.eq_of_mem_replicate hz]; decide
  · exact Nat.isDigit_of_mem_toDigits (by decide) (by decide) hd

theorem length_padded (count n : Nat) : count ≤ (padded count n).length := by
  simp only [padded, List.length_append, List.length_replicate]
  omega

/-- Digits with a point before the last ones: at least one before it and `places` after it. -/
theorem withPoint_eq (places n : Nat) :
    ∃ w f, withPoint places n = w ++ '.' :: f ∧ w ++ f = padded (places + 1) n ∧ w ≠ [] ∧
      f.length = places := by
  have hlen := length_padded (places + 1) n
  refine ⟨_, _, rfl, List.take_append_drop _ _, ?_, ?_⟩
  · intro h
    have := congrArg List.length h
    rw [List.length_take, List.length_nil] at this
    omega
  · rw [List.length_drop]
    omega

/-- What is not finite is written as one of three words. -/
theorem fixedPoint_of_not_isFinite {x : Float} (h : x.isFinite = false) (places : Nat) :
    fixedPoint places x ∈ ["NaN".toList, "inf".toList, "-inf".toList] := by
  rw [Exact.isFinite_eq, Bool.not_eq_false', Bool.or_eq_true] at h
  unfold fixedPoint signOf
  by_cases hn : x.isNaN = true
  · rw [if_pos hn]
    simp
  · rw [if_neg hn, if_pos (h.resolve_left hn)]
    split <;> simp

theorem point_not_mem_signOf (x : Float) : '.' ∉ signOf x := by
  unfold signOf
  split <;> decide

/-- A finite number is written as digits around a point, after its sign. -/
theorem fixedPoint_of_isFinite {x : Float} (h : x.isFinite = true) (places : Nat) :
    ∃ w f, fixedPoint places x = signOf x ++ (w ++ '.' :: f) ∧ w ≠ [] ∧
      (∀ c ∈ w, c.isDigit = true) ∧ (∀ c ∈ f, c.isDigit = true) ∧
      w ++ f = padded (places + 1) (Decimal.atPlaces places x).digits ∧ f.length = places := by
  rw [Exact.isFinite_eq, Bool.not_eq_true', Bool.or_eq_false_iff] at h
  obtain ⟨w, f, hp, hcat, hw, hf⟩ := withPoint_eq places (Decimal.atPlaces places x).digits
  have hdigit : ∀ c ∈ w ++ f, c.isDigit = true := fun c hc => isDigit_of_mem_padded (hcat ▸ hc)
  refine ⟨w, f, ?_, hw, fun c hc => hdigit c (List.mem_append_left _ hc),
    fun c hc => hdigit c (List.mem_append_right _ hc), hcat, hf⟩
  rw [fixedPoint, h.1, h.2, hp]
  rfl

end Format

namespace Picture

open Literal

theorem pointed_append (s w f : List Char) : pointed (s ++ w) f = s ++ pointed w f := by
  unfold pointed
  split
  · rfl
  · rw [List.append_assoc]

/-- Of the digits after a point all zeros at the end are dropped, and the point with the last of
them. -/
theorem trimZeros_append_point {w f : List Char} (hw : ∀ c ∈ w, c ≠ '.')
    (hf : ∀ c ∈ f, c ≠ '.') :
    ∃ g k, f = g ++ List.replicate k '0' ∧ g.getLast? ≠ some '0' ∧
      trimZeros (w ++ '.' :: f) = pointed w g := by
  have hrev : (w ++ '.' :: f).reverse = f.reverse ++ '.' :: w.reverse := by simp
  have hwhole : w.reverse.dropWhile (· == '.') = w.reverse := by
    cases hr : w.reverse with
    | nil => rfl
    | cons c r =>
      have hc : c ≠ '.' := hw c (List.mem_reverse.1 (hr ▸ List.mem_cons_self))
      simp [hc]
  have hzeros : ∀ c ∈ f.reverse.takeWhile (· == '0'), c = '0' := fun c hc =>
    beq_iff_eq.1 (List.all_eq_true.1 List.all_takeWhile c hc)
  refine ⟨(f.reverse.dropWhile (· == '0')).reverse, (f.reverse.takeWhile (· == '0')).length, ?_, ?_,
    ?_⟩
  · rw [← List.reverse_replicate, ← List.eq_replicate_of_mem hzeros, ← List.reverse_append,
      List.takeWhile_append_dropWhile, List.reverse_reverse]
  · rw [List.getLast?_reverse]
    intro hlast
    have hnot := List.head?_dropWhile_not (· == '0') f.reverse
    rw [hlast] at hnot
    cases hnot
  · have hsub : ∀ c ∈ f.reverse.dropWhile (· == '0'), c ≠ '.' := fun c hc =>
      hf c (List.mem_reverse.1 ((List.dropWhile_sublist _).mem hc))
    rw [trimZeros, hrev, List.dropWhile_append]
    cases hd : f.reverse.dropWhile (· == '0') with
    | nil => simp [pointed, hwhole]
    | cons c r =>
      have hc : c ≠ '.' := hsub c (hd ▸ List.mem_cons_self)
      simp [pointed, hc]

theorem mem_figures_of_isDigit {c : Char} (h : c.isDigit = true) : c ∈ figures :=
  List.mem_append_left _ (isDigit_iff.1 h)

theorem mem_pointed {w f : List Char} (hw : ∀ c ∈ w, c.isDigit = true)
    (hf : ∀ c ∈ f, c.isDigit = true) {c : Char} (hc : c ∈ pointed w f) :
    c = '.' ∨ c.isDigit = true := by
  unfold pointed at hc
  split at hc
  · exact .inr (hw c hc)
  · rcases List.mem_append.1 hc with hc | hc
    · exact .inr (hw c hc)
    · exact (List.mem_cons.1 hc).imp id (hf c)

theorem mem_figures_of_mem_pointed {w f : List Char} (hw : ∀ c ∈ w, c.isDigit = true)
    (hf : ∀ c ∈ f, c.isDigit = true) {c : Char} (hc : c ∈ pointed w f) : c ∈ figures := by
  rcases mem_pointed hw hf hc with rfl | hc
  · decide
  · exact mem_figures_of_isDigit hc

theorem isNumeral_pointed {w f : List Char} (hne : w ≠ []) (hw : ∀ c ∈ w, c.isDigit = true)
    (hf : ∀ c ∈ f, c.isDigit = true) (negative : Bool) :
    IsNumeral ((if negative then ['-'] else []) ++ pointed w f) := by
  refine ⟨negative, pointed w f, fun _ hc => mem_figures_of_mem_pointed hw hf hc, ?_, rfl⟩
  rw [readMagnitude?_pointed hne hw hf]
  rfl

/-- A finite number loses the zeros at the end of its four places. -/
theorem trimZeros_fixedPoint {x : Float} (h : x.isFinite = true) :
    ∃ w g k, trimZeros (Format.fixedPoint 4 x) = Format.signOf x ++ pointed w g ∧ w ≠ [] ∧
      (∀ c ∈ w, c.isDigit = true) ∧ (∀ c ∈ g, c.isDigit = true) ∧
      w ++ g ++ List.replicate k '0' = Format.padded 5 (Decimal.atPlaces 4 x).digits ∧
      g.length + k = 4 ∧ g.getLast? ≠ some '0' := by
  obtain ⟨w, f, htext, hne, hw, hf, hcat, hlength⟩ := Format.fixedPoint_of_isFinite h 4
  have hdigit : ∀ {c : Char}, c.isDigit = true → c ≠ '.' := by
    rintro _ hc rfl
    exact absurd hc (by decide)
  have hsign : ∀ c ∈ Format.signOf x, c ≠ '.' := fun c hc hp =>
    Format.point_not_mem_signOf x (hp ▸ hc)
  obtain ⟨g, k, rfl, hlast, htrim⟩ := trimZeros_append_point (w := Format.signOf x ++ w) (f := f)
    (fun c hc => (List.mem_append.1 hc).elim (hsign c) fun hc => hdigit (hw c hc))
    (fun c hc => hdigit (hf c hc))
  refine ⟨w, g, k, ?_, hne, hw, fun c hc => hf c (List.mem_append_left _ hc), ?_, ?_, hlast⟩
  · rw [htext, ← List.append_assoc, htrim, pointed_append]
  · rw [List.append_assoc, hcat]
  · rwa [List.length_append, List.length_replicate] at hlength

theorem isNumeral_trimZeros (x : Float) : IsNumeral (trimZeros (Format.fixedPoint 4 x)) := by
  by_cases hfin : x.isFinite = true
  · obtain ⟨w, g, k, htrim, hne, hw, hg, -⟩ := trimZeros_fixedPoint hfin
    rw [htrim]
    exact isNumeral_pointed hne hw hg _
  -- The words have neither point nor zeros to drop.
  · have hword : ∀ s ∈ ["NaN".toList, "inf".toList, "-inf".toList], trimZeros s = s := by decide
    have hmem := Format.fixedPoint_of_not_isFinite (Bool.eq_false_iff.2 hfin) 4
    rw [hword _ hmem]
    simp only [List.mem_cons, List.not_mem_nil, or_false] at hmem
    rcases hmem with h | h | h <;> rw [h]
    · exact ⟨false, "NaN".toList, by decide, by decide, rfl⟩
    · exact ⟨false, "inf".toList, by decide, by decide, rfl⟩
    · exact ⟨true, "inf".toList, by decide, by decide, rfl⟩

/-- Every number is written as a numeral, also one that is not finite. -/
theorem isNumeral_coordinate (x : Float) : IsNumeral (coordinate x) := by
  unfold coordinate
  dsimp only
  split
  · exact ⟨false, ['0'], by decide, by decide, rfl⟩
  · exact isNumeral_trimZeros x

theorem isNumeral_wholeNumber (n : Int) : IsNumeral (wholeNumber n) := by
  have hdigit : ∀ c ∈ Nat.toDigits 10 n.natAbs, c.isDigit = true := fun c hc =>
    Nat.isDigit_of_mem_toDigits (by decide) (by decide) hc
  have h := isNumeral_pointed (f := []) Nat.toDigits_ne_nil hdigit (by simp) (decide (n < 0))
  simpa [wholeNumber, pointed] using h

/-! ### Radii -/

/-- The text of a length: digits, points and minus signs that spell a number not below zero. -/
structure IsRadius (s : List Char) : Prop where
  subset : s ⊆ '-' :: '.' :: decimalDigits
  read?_eq : read? s = some (value s)
  not_lt : ¬ value s < 0

/-- A distance has no sign, not even that of a zero. -/
theorem isNegative_distance (p q : Point Float) : Exact.isNegative (p.distance q) = false :=
  Exact.isNegative_sqrt (Exact.isNegative_fusedMulAdd_self _ (Exact.isNegative_mul_self _))

/-- A finite number without a sign is written as its digits at the given places. -/
theorem read?_fixedPoint {x : Float} (hx : x.isFinite = true) (hsign : Exact.isNegative x = false)
    {places : Nat} (hplaces : places ≠ 0) :
    ∃ w f, Format.fixedPoint places x = pointed w f ∧ w ≠ [] ∧ (∀ c ∈ w, c.isDigit = true) ∧
      (∀ c ∈ f, c.isDigit = true) ∧ w ++ f = Format.padded (places + 1) (Decimal.atPlaces places x).digits ∧
      read? (Format.fixedPoint places x) =
        some (Decimal.toFloat ⟨digitsValue (w ++ f), -(places : Int)⟩) := by
  obtain ⟨w, f, htext, hne, hw, hf, hcat, hlength⟩ := Format.fixedPoint_of_isFinite hx places
  have hpointed : Format.fixedPoint places x = pointed w f := by
    have hfne : f ≠ [] := by
      rintro rfl
      exact hplaces hlength.symm
    rw [htext, Format.signOf, hsign, pointed, if_neg hfne]
    rfl
  have hmagnitude := readMagnitude?_pointed hne hw hf
  have hread := read?_signed (ne_nil_of_readMagnitude? (by rw [hmagnitude]; rfl))
    (fun _ hc => mem_figures_of_mem_pointed hw hf hc) false
  rw [hmagnitude, hlength] at hread
  exact ⟨w, f, hpointed, hne, hw, hf, hcat, by rw [hpointed]; exact hread⟩

/-- A finite distance is written as a length. -/
theorem isRadius_fixedPoint {p q : Point Float} (h : (p.distance q).isFinite = true) :
    IsRadius (Format.fixedPoint 2 (p.distance q)) := by
  obtain ⟨w, f, hpointed, -, hw, hf, -, hread⟩ :=
    read?_fixedPoint h (isNegative_distance p q) (show 2 ≠ 0 by decide)
  refine ⟨fun c hc => ?_, ?_, ?_⟩
  · rcases mem_pointed hw hf (hpointed ▸ hc) with rfl | hc
    · decide
    · exact List.mem_cons_of_mem _ (List.mem_cons_of_mem _ (isDigit_iff.1 hc))
  · rw [value, hread, Option.getD_some]
  · rw [value, hread, Option.getD_some]
    intro hlt
    have hneg := Exact.isNegative_of_lt_zero hlt
    rw [Exact.isNegative_toFloat] at hneg
    cases hneg

/-- A distance is written with figures, also if it is not finite. -/
theorem radiusText_subset (p q : Point Float) :
    Format.fixedPoint 2 (p.distance q) ⊆ '-' :: figures := by
  cases h : (p.distance q).isFinite with
  | true => exact List.Subset.trans (isRadius_fixedPoint h).subset (by decide)
  | false =>
    have hword : ∀ word ∈ ["NaN".toList, "inf".toList, "-inf".toList], word ⊆ '-' :: figures := by
      decide
    exact hword _ (Format.fixedPoint_of_not_isFinite h 2)

/-! ### Alphabets -/

/-- The characters of modifier items. -/
def itemCharacters : List Char := "abcdefghijklmnopqrstuvwxyzN0123456789.=!<>- ".toList

/-- The characters of modifiers and points. None of them ends a line or a statement, opens a brace
or starts a comment or a command. -/
def plainCharacters : List Char := itemCharacters ++ ",()[]".toList

theorem subset_of_isNumeral {s : List Char} (h : IsNumeral s) : s ⊆ itemCharacters :=
  List.Subset.trans h.subset (by decide)

theorem subset_plainCharacters {s : List Char} (h : s ⊆ itemCharacters) : s ⊆ plainCharacters :=
  List.Subset.trans h (List.subset_append_left _ _)

end Picture

end Draftboard
