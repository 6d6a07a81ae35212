import Draftboard.Picture.Statement
import Draftboard.Proofs.Picture.Numeral

/-!
# Draftboard.Proofs.Picture.Modifier

A written modifier block is read back.

What is left of a style depends on the kind of shape (`Style.normal`), and a colour comes back with
its tint rounded to a whole percentage (`Color.normal`). The items of a block are read one by one
(`readModifiers_append`), so each kind of item has one lemma, and `takeModifiers_modifierBlock` puts
them together.
-/

namespace Draftboard

open Text

/-! ### What is left of a style -/

/-- A colour as it is read after it has been written: black at half tint is gray, and other tints
below one are whole percentages. -/
def Color.normal (c : Color) : Color :=
  if c.isHalfBlack then ⟨.gray, 1⟩
  else if c.isDefault then ⟨.black, 1⟩
  else if c.tint < 1 then
    .tinted c.ink (Literal.value (Picture.wholeNumber (Picture.percentage c.tint)) / Scalar.ofNat 100)
  else ⟨c.ink, 1⟩

/-- The part of a style that means something for a kind of shape. -/
def Style.normal (s : Style) : Kind → Style
  | .label => { color := s.color.normal }
  | .circle => { color := s.color.normal, dashed := s.dashed, filled := s.filled }
  | .polyline => { s with color := s.color.normal }
  | .line | .curve => { s with color := s.color.normal, filled := false }

namespace Picture

/-! ### Colours -/

theorem clamp_one : Scalar.clamp (0 : Float) 1 1 = 1 := by decide +kernel

theorem named?_name (ink : Ink) : Ink.named? ink.name.toList = some ink := by
  cases ink <;> decide

theorem name_subset (ink : Ink) : ink.name.toList ⊆ itemCharacters := by
  cases ink <;> decide

theorem not_mem_name (ink : Ink) : '!' ∉ ink.name.toList := by
  cases ink <;> decide

theorem name_not_blank (ink : Ink) : ∀ c ∈ ink.name.toList, isBlank c = false := by
  have hname : ink.name.toList.any isBlank = false := by cases ink <;> decide
  exact fun c hc => eq_false_of_any hname hc

theorem readColor_of_blank (value : List Char) : readColor (' ' :: value) = readColor value := by
  rw [readColor, trim_cons_of_blank (by decide), readColor]

/-- An ink alone has its full tint. -/
theorem readColor_name (ink : Ink) : readColor ink.name.toList = .ok ⟨ink, 1⟩ := by
  have hcut : cutAt ['!'] ink.name.toList = none :=
    cutAt_eq_none List.mem_cons_self (not_mem_name ink)
  have htrim := trim_of_no_blank (name_not_blank ink)
  simp only [readColor, htrim, readTint, hcut, colorName, named?_name, Option.getD_some,
    Color.tinted, clamp_one]

/-- An ink with a percentage. -/
theorem readColor_tint (ink : Ink) {percent : List Char} (hp : IsNumeral percent) :
    readColor (ink.name.toList ++ '!' :: percent) =
      .ok (.tinted ink (Literal.value percent / Scalar.ofNat 100)) := by
  have hcut : cutAt ['!'] (ink.name.toList ++ '!' :: percent) = some (ink.name.toList, percent) :=
    cutAt_char (not_mem_name ink) percent
  have htrim : trim (ink.name.toList ++ '!' :: percent) = ink.name.toList ++ '!' :: percent := by
    refine trim_of_no_blank fun c hc => ?_
    rcases List.mem_append.1 hc with hc | hc
    · exact name_not_blank ink c hc
    · rcases List.mem_cons.1 hc with rfl | hc
      · decide
      · exact hp.not_blank c hc
  have hname := trim_of_no_blank (name_not_blank ink)
  have hpercent := trim_of_no_blank hp.not_blank
  simp only [readColor, htrim, readTint, hcut, hpercent, hp.read?_eq, colorName, hname, named?_name,
    Option.getD_some]

/-- A colour setting is read by its value. -/
theorem read_colorSetting (value : List Char) :
    Modifier.read ("color = ".toList ++ value) = (readColor value).map .color := by
  have hcut : cutAt ['='] ("color = ".toList ++ value) = some ("color ".toList, ' ' :: value) :=
    cutAt_char (s := "color ".toList) (by decide) _
  have hkey : sameIgnoringCase (trim "color ".toList) "color".toList = true := by decide
  have hhead : ∀ word ∈ ["dashed".toList, "->".toList, "<-".toList, "<->".toList],
      "color = ".toList ++ value ≠ word := by
    simp
  rw [Modifier.read, if_neg (hhead _ (by decide)), if_neg (hhead _ (by decide)),
    if_neg (hhead _ (by decide)), if_neg (hhead _ (by decide)), hcut]
  simp only [hkey, if_true, readColor_of_blank]

theorem trim_colorSetting {value : List Char} (hne : value ≠ [])
    (h : ∀ c ∈ value, isBlank c = false) :
    trim ("color = ".toList ++ value) = "color = ".toList ++ value := by
  refine trim_of_ends (fun c hc => ?_) (fun c hc => ?_)
  · obtain rfl : 'c' = c := Option.some.inj hc
    decide
  · rw [List.getLast?_append_of_ne_nil _ hne] at hc
    exact h c (List.mem_of_getLast? hc)

/-! ### Items -/

/-- Items are read one after another. -/
theorem readModifiers_append {s t : Style} {xs : List (List Char)} (h : readModifiers s xs = .ok t)
    (ys : List (List Char)) : readModifiers s (xs ++ ys) = readModifiers t ys := by
  induction xs generalizing s with
  | nil =>
    obtain rfl : s = t := Except.ok.inj h
    rfl
  | cons x xs ih =>
    rw [readModifiers] at h
    rw [List.cons_append, readModifiers]
    cases hx : Modifier.read (trim x) with
    | error e => rw [hx] at h; cases h
    | ok m => rw [hx] at h; exact ih h

theorem readModifiers_singleton {item : List Char} {m : Modifier} (s : Style)
    (h : Modifier.read (trim item) = .ok m) : readModifiers s [item] = .ok (m.apply s) := by
  rw [readModifiers, h]
  rfl

/-- The written colour, if any, makes the default colour the one that is left. -/
theorem readModifiers_colorItems (c : Color) :
    readModifiers {} (colorItems c) = .ok { color := c.normal } := by
  have hsetting : ∀ {value : List Char} {d : Color}, value ≠ [] →
      (∀ c ∈ value, isBlank c = false) → readColor value = .ok d →
      readModifiers {} ["color = ".toList ++ value] = .ok { color := d } := by
    intro value d hne hblank hread
    have hitem : Modifier.read (trim ("color = ".toList ++ value)) = .ok (.color d) := by
      rw [trim_colorSetting hne hblank, read_colorSetting, hread]
      rfl
    exact readModifiers_singleton {} hitem
  have hne : ∀ ink : Ink, ink.name.toList ≠ [] := by intro ink; cases ink <;> decide
  unfold colorItems Color.normal
  split
  · exact hsetting (hne .gray) (name_not_blank .gray) (readColor_name .gray)
  · split
    · rfl
    · split
      -- The percentage may be that of a tint which is not finite, and is a numeral all the same.
      · have hp := isNumeral_wholeNumber (percentage c.tint)
        rw [List.append_assoc]
        refine hsetting (by simp) (fun d hd => ?_) (readColor_tint c.ink hp)
        rcases List.mem_append.1 hd with hd | hd
        · exact name_not_blank c.ink d hd
        · rcases List.mem_cons.1 hd with rfl | hd
          · decide
          · exact hp.not_blank d hd
      · exact hsetting (hne c.ink) (name_not_blank c.ink) (readColor_name c.ink)

theorem readModifiers_dashed (s : Style) (dashed : Bool) :
    readModifiers s (if dashed then ["dashed".toList] else []) =
      .ok { s with dashed := s.dashed || dashed } := by
  cases dashed with
  | true =>
    rw [if_pos rfl, readModifiers_singleton s (m := .dashed) rfl, Bool.or_true]
    rfl
  | false => rw [Bool.or_false]; rfl

theorem readModifiers_arrowItems (s : Style) (front back : Bool) :
    readModifiers s (arrowItems front back) =
      .ok { s with frontArrow := s.frontArrow || front, backArrow := s.backArrow || back } := by
  cases front <;> cases back
  · simp [arrowItems, readModifiers]
  · exact readModifiers_singleton s (m := .arrows false true) rfl
  · exact readModifiers_singleton s (m := .arrows true false) rfl
  · exact readModifiers_singleton s (m := .arrows true true) rfl

theorem readModifiers_thickness (s : Style) (hs : s.thickness = .thin) (t : Thickness) :
    readModifiers s (if t = .thin then [] else [t.token.toList]) = .ok { s with thickness := t } := by
  have hitem : t ≠ .thin → Modifier.read (trim t.token.toList) = .ok (.thickness t) := by
    cases t <;> intro _ <;> rfl
  split
  · rename_i ht
    subst ht
    rw [← hs]
    rfl
  · rename_i ht
    exact readModifiers_singleton s (hitem ht)

/-- The written items give the style that is left, apart from the fill, which is up to the
command. -/
theorem readModifiers_modifierItems (s : Style) (k : Kind) :
    readModifiers {} (modifierItems s k) = .ok { s.normal k with filled := false } := by
  have hcolor := readModifiers_colorItems s.color
  have hdashed : readModifiers {} (colorItems s.color ++
      (if s.dashed then ["dashed".toList] else [])) =
        .ok { color := s.color.normal, dashed := s.dashed } := by
    rw [readModifiers_append hcolor, readModifiers_dashed, Bool.false_or]
  have harrows : readModifiers {} (colorItems s.color ++
      (if s.dashed then ["dashed".toList] else []) ++ arrowItems s.frontArrow s.backArrow) =
        .ok { color := s.color.normal, dashed := s.dashed,
              frontArrow := s.frontArrow, backArrow := s.backArrow } := by
    rw [readModifiers_append hdashed, readModifiers_arrowItems, Bool.false_or, Bool.false_or]
  have hthickness := readModifiers_append harrows
    (if s.thickness = .thin then [] else [s.thickness.token.toList])
  rw [readModifiers_thickness _ rfl] at hthickness
  -- A label has the first of the groups only, a circle the first two.
  cases k with
  | label => exact hcolor
  | circle => exact hdashed
  | line => exact hthickness
  | polyline => exact hthickness
  | curve => exact hthickness

/-! ### The block -/

theorem colorItems_subset (c : Color) : ∀ item ∈ colorItems c, item ⊆ itemCharacters := by
  have hsetting : ∀ {value : List Char}, value ⊆ itemCharacters →
      "color = ".toList ++ value ⊆ itemCharacters := fun h =>
    List.append_subset.2 ⟨by decide, h⟩
  unfold colorItems
  split
  · decide
  · split
    · exact fun item h => absurd h List.not_mem_nil
    · split
      · intro item h
        rw [List.mem_singleton.1 h, List.append_assoc]
        have hpercent := subset_of_isNumeral (isNumeral_wholeNumber (percentage c.tint))
        exact hsetting (List.append_subset.2 ⟨name_subset c.ink,
          List.cons_subset.2 ⟨by decide, hpercent⟩⟩)
      · intro item h
        rw [List.mem_singleton.1 h]
        exact hsetting (name_subset c.ink)

/-- No item holds a character that the block is cut at. -/
theorem modifierItems_subset (s : Style) (k : Kind) :
    ∀ item ∈ modifierItems s k, item ⊆ itemCharacters := by
  have hcolor := colorItems_subset s.color
  have hdashed : ∀ item ∈ (if s.dashed then ["dashed".toList] else []), item ⊆ itemCharacters := by
    cases s.dashed <;> decide
  have harrows : ∀ item ∈ arrowItems s.frontArrow s.backArrow, item ⊆ itemCharacters := by
    cases s.frontArrow <;> cases s.backArrow <;> decide
  have hthickness : ∀ item ∈ (if s.thickness = .thin then [] else [s.thickness.token.toList]),
      item ⊆ itemCharacters := by
    cases s.thickness <;> decide
  have hall := List.forall_mem_append.2
    ⟨List.forall_mem_append.2 ⟨List.forall_mem_append.2 ⟨hcolor, hdashed⟩, harrows⟩, hthickness⟩
  cases k with
  | label => exact hcolor
  | circle => exact List.forall_mem_append.2 ⟨hcolor, hdashed⟩
  | line => exact hall
  | polyline => exact hall
  | curve => exact hall

/-- A blank before an item is trimmed. -/
theorem readModifiers_consHead (s : Style) {items : List (List Char)} (h : items ≠ []) :
    readModifiers s (consHead ' ' items) = readModifiers s items := by
  cases items with
  | nil => exact absurd rfl h
  | cons item rest => rw [consHead, readModifiers, trim_cons_of_blank (by decide), readModifiers]

/-- The items of a block are read as they were before they were joined. -/
theorem readModifiers_joinWith (s : Style) {items : List (List Char)} (hne : items ≠ [])
    (h : ∀ item ∈ items, ',' ∉ item) :
    readModifiers s (splitWhere (· == ',') (joinWith [',', ' '] items)) = readModifiers s items := by
  induction items generalizing s with
  | nil => exact absurd rfl hne
  | cons item rest ih =>
    obtain ⟨hitem, hrest⟩ := List.forall_mem_cons.1 h
    have hnot : ∀ c ∈ item, (c == ',') = false := fun c hc =>
      beq_eq_false_iff_ne.2 fun hcd => hitem (hcd ▸ hc)
    by_cases hnil : rest = []
    · subst hnil
      rw [joinWith, splitWhere_of_none hnot]
    · have hblank : splitWhere (· == ',') (' ' :: joinWith [',', ' '] rest) =
          consHead ' ' (splitWhere (· == ',') (joinWith [',', ' '] rest)) := by
        rw [splitWhere, if_neg (by decide)]
      rw [joinWith_cons hnil, List.append_assoc, List.cons_append, List.singleton_append,
        splitWhere_append_cons hnot (by decide), hblank, readModifiers, readModifiers]
      cases Modifier.read (trim item) with
      | error e => rfl
      | ok m =>
        dsimp only
        rw [readModifiers_consHead _ (splitWhere_ne_nil _ _), ih _ hnil hrest]

theorem modifierBlock_subset (s : Style) (k : Kind) : modifierBlock s k ⊆ plainCharacters := by
  have hitems := modifierItems_subset s k
  unfold modifierBlock
  split
  · exact List.nil_subset _
  · refine List.append_subset.2 ⟨List.cons_subset.2 ⟨by decide, fun c hc => ?_⟩, by decide⟩
    rcases mem_of_mem_joinWith hc with hc | ⟨item, hitem, hc⟩
    · exact (by decide : [',', ' '] ⊆ plainCharacters) hc
    · exact subset_plainCharacters (hitems item hitem) hc

/-- A written block is taken off, with the blank after it. -/
theorem takeModifiers_modifierBlock (s : Style) (k : Kind) {c : Char} (hc : isBlank c = false)
    (hopen : c ≠ '[') (r : List Char) :
    takeModifiers (trimStart (modifierBlock s k ++ ' ' :: c :: r)) =
      .ok ({ s.normal k with filled := false }, c :: r) := by
  have hread := readModifiers_modifierItems s k
  have hitems := modifierItems_subset s k
  have hbody : trimStart (' ' :: c :: r) = c :: r := by
    rw [trimStart_cons_of_blank (by decide), trimStart_cons_of_not_blank hc]
  unfold modifierBlock
  split
  -- Without items there is no block, and the body must not be taken for one.
  · rename_i hnil
    rw [hnil] at hread
    rw [List.nil_append, hbody, takeModifiers]
    · exact congrArg (fun t => Except.ok (t, c :: r)) (Except.ok.inj hread)
    · exact fun inner h => hopen (List.cons.inj h).1
  · rename_i hne
    have hblock : ']' ∉ joinWith [',', ' '] (modifierItems s k) := by
      intro h
      rcases mem_of_mem_joinWith h with h | ⟨item, hitem, h⟩
      · exact absurd h (by decide)
      · exact absurd (hitems item hitem h) (by decide)
    rw [List.append_assoc, List.cons_append, trimStart_cons_of_not_blank (by decide),
      takeModifiers, List.singleton_append, cutAt_char hblock]
    dsimp only
    have hcomma : ∀ item ∈ modifierItems s k, ',' ∉ item := fun item hitem h =>
      absurd (hitems item hitem h) (by decide)
    rw [readModifiers_joinWith {} hne hcomma, hread]
    dsimp only
    rw [hbody]

end Picture

end Draftboard
