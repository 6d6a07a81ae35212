import Draftboard.Proofs.Picture.Tint

/-!
# Draftboard.Proofs.Picture.Attributes

What a modifier block says about each attribute of a style.

* An item is one of the four flags, a stroke weight, a colour, or nothing that is known, and the readings
  of the four kinds exclude one another. So a single item changes one attribute at most, and refuses the
  block only by the percentage of its colour (`Modifier.read_cases`).
* `Amends` says of each attribute what a list of items makes of it: a flag is set if one of the items sets
  it, and of the weights and the colours the last one counts. Lists that are read one after another compose
  (`Amends.trans`), and so a list is read as its items are (`readModifiers_cases`).
* The result depends on which flags there are, on the last weight and on the colours in their order
  (`readModifiers_congr`), and so neither on unknown items nor on the order of items of different kinds.
-/

namespace Draftboard.Picture

open Text

/-! ### Kinds of items -/

/-- The items that set a flag. -/
def flagItems : List (List Char) :=
  ["dashed".toList, "->".toList, "<-".toList, "<->".toList]

theorem forall_mem_flagItems {P : List Char → Prop} : (∀ flag ∈ flagItems, P flag) ↔
    P "dashed".toList ∧ P "->".toList ∧ P "<-".toList ∧ P "<->".toList := by
  simp [flagItems]

/-- The percentage of a colour value, if it is no number. -/
def badPercentage? (value : List Char) : Option (List Char) :=
  (percentage? value).filter fun percent => (Literal.read? percent).isNone

/-- Whether an item means anything. -/
def isKnown (item : List Char) : Bool :=
  flagItems.contains item || (Thickness.ofToken? item).isSome || (colorValue? item).isSome

/-- A block of items and the text after it. -/
def bracketed (items : List (List Char)) (rest : List Char) : List Char :=
  '[' :: (joinWith [','] items ++ ']' :: rest)

/-! ### Items of two kinds -/

theorem exists_mem_splitWhere {p : Char → Bool} {c : Char} {s : List Char} (hc : c ∈ s)
    (hp : p c = false) : ∃ w ∈ splitWhere p s, c ∈ w := by
  induction s with
  | nil => cases hc
  | cons d s ih =>
    rw [splitWhere]
    rcases List.mem_cons.1 hc with rfl | hc
    · rw [if_neg (by simp [hp])]
      cases splitWhere p s <;> simp [consHead]
    · obtain ⟨w, hw, hcw⟩ := ih hc
      split
      · exact ⟨w, List.mem_cons_of_mem _ hw, hcw⟩
      · cases hs : splitWhere p s with
        | nil => simp [hs] at hw
        | cons v vs =>
          rw [hs] at hw
          rcases List.mem_cons.1 hw with rfl | hw
          · exact ⟨d :: w, by simp [consHead], List.mem_cons_of_mem _ hcw⟩
          · exact ⟨w, by simp [consHead, hw], hcw⟩

/-- No stroke weight is a setting. -/
theorem ofToken?_eq_none_of_mem {item : List Char} (h : '=' ∈ item) :
    Thickness.ofToken? item = none := by
  obtain ⟨w, hw, hmem⟩ := exists_mem_splitWhere h (show isBlank '=' = false by decide)
  have hword : w ∈ words item := by
    refine List.mem_filter.2 ⟨hw, ?_⟩
    simpa using List.ne_nil_of_mem hmem
  have hnormal : '=' ∈ joinWith [' '] (words item) := by
    have hinfix : w <:+ joinWith [' '] (words item) ∨ w ++ [' '] <:+: joinWith [' '] (words item) :=
      isInfix_joinWith_of_mem hword
    rcases hinfix with hlast | hinner
    · exact hlast.subset hmem
    · exact hinner.subset (List.mem_append_left _ hmem)
  have htoken : ∀ t ∈ Thickness.all, '=' ∉ t.token.toList.map Char.toLower := by decide
  rw [Thickness.ofToken?]
  refine List.find?_eq_none.2 fun t ht hsame => htoken t ht ?_
  rw [eq_of_beq hsame]
  exact List.mem_map.2 ⟨'=', hnormal, by decide⟩

/-- A colour value is refused by its percentage only. -/
theorem readColor_cases (value : List Char) :
    (∃ c, readColor value = .ok c ∧ badPercentage? value = none) ∨
      ∃ percent, readColor value = badNumber percent ∧ badPercentage? value = some percent := by
  unfold readColor readTint badPercentage? percentage?
  dsimp only
  cases cutAt ['!'] (trim value) with
  | none => exact .inl ⟨_, rfl, rfl⟩
  | some parts =>
    obtain ⟨name, percent⟩ := parts
    cases hread : Literal.read? (trim percent) with
    | some x => exact .inl ⟨_, by simp only [hread]; rfl, by simp [hread]⟩
    | none => exact .inr ⟨trim percent, by simp only [hread]; rfl, by simp [hread]⟩

/-! ### Attributes -/

/-- What items make of the attributes of a style. -/
structure Amends (s : Style) (items : List (List Char)) (t : Style) : Prop where
  dashed : t.dashed = true ↔ s.dashed = true ∨ "dashed".toList ∈ items
  frontArrow : t.frontArrow = true ↔
    s.frontArrow = true ∨ "->".toList ∈ items ∨ "<->".toList ∈ items
  backArrow : t.backArrow = true ↔
    s.backArrow = true ∨ "<-".toList ∈ items ∨ "<->".toList ∈ items
  thickness : t.thickness = ((items.filterMap Thickness.ofToken?).getLast?).getD s.thickness
  color : Decides (items.filterMap colorValue?) s.color t.color
  filled : t.filled = s.filled

theorem Decides.trans {vs ws : List (List Char)} {a b c : Color} (h : Decides vs a b)
    (h' : Decides ws b c) : Decides (vs ++ ws) a c := by
  rcases h' with ⟨rfl, rfl⟩ | ⟨w, hw, hc⟩
  · rwa [List.append_nil]
  · exact .inr ⟨w, by simp [List.getLast?_append, hw], hc⟩

theorem Decides.unique {vs : List (List Char)} {a b c : Color} (h : Decides vs a b)
    (h' : Decides vs a c) : b = c := by
  rcases h with ⟨rfl, rfl⟩ | ⟨v, hv, hb⟩
  · rcases h' with ⟨-, rfl⟩ | ⟨w, hw, -⟩
    · rfl
    · cases hw
  · rcases h' with ⟨rfl, -⟩ | ⟨w, hw, hc⟩
    · cases hv
    · obtain rfl := Option.some.inj (hv.symm.trans hw)
      exact Except.ok.inj (hb.symm.trans hc)

namespace Amends

variable {s t u : Style} {xs ys : List (List Char)}

theorem refl (s : Style) : Amends s [] s where
  dashed := by simp
  frontArrow := by simp
  backArrow := by simp
  thickness := rfl
  color := .inl ⟨rfl, rfl⟩
  filled := rfl

theorem trans (h : Amends s xs t) (h' : Amends t ys u) : Amends s (xs ++ ys) u where
  dashed := by rw [h'.dashed, h.dashed, List.mem_append, or_assoc]
  frontArrow := by
    rw [h'.frontArrow, h.frontArrow, List.mem_append, List.mem_append]
    tauto
  backArrow := by
    rw [h'.backArrow, h.backArrow, List.mem_append, List.mem_append]
    tauto
  thickness := by
    rw [h'.thickness, h.thickness, List.filterMap_append, List.getLast?_append]
    cases (ys.filterMap Thickness.ofToken?).getLast? <;> rfl
  color := by
    rw [List.filterMap_append]
    exact h.color.trans h'.color
  filled := h'.filled.trans h.filled

/-- The flags, the last weight and the colours settle the style. -/
theorem unique (h : Amends s xs t) (h' : Amends s ys u)
    (hflags : ∀ flag ∈ flagItems, flag ∈ xs ↔ flag ∈ ys)
    (hweights : (xs.filterMap Thickness.ofToken?).getLast? =
      (ys.filterMap Thickness.ofToken?).getLast?)
    (hcolors : xs.filterMap colorValue? = ys.filterMap colorValue?) : t = u := by
  obtain ⟨hdashed, hfront, hback, hboth⟩ := forall_mem_flagItems.1 hflags
  obtain ⟨color, dashed, front, back, filled, thickness⟩ := t
  obtain ⟨color', dashed', front', back', filled', thickness'⟩ := u
  have hcolor : color = color' := h.color.unique (hcolors ▸ h'.color)
  have hd : dashed = dashed' := Bool.eq_iff_iff.2 (by rw [h.dashed, h'.dashed, hdashed])
  have hf : front = front' :=
    Bool.eq_iff_iff.2 (by rw [h.frontArrow, h'.frontArrow, hfront, hboth])
  have hb : back = back' := Bool.eq_iff_iff.2 (by rw [h.backArrow, h'.backArrow, hback, hboth])
  have hfilled : filled = filled' := h.filled.trans h'.filled.symm
  have hthickness : thickness = thickness' := by
    have ht := h.thickness
    have hu := h'.thickness
    rw [hweights, ← hu] at ht
    exact ht
  rw [hcolor, hd, hf, hb, hfilled, hthickness]

/-- What one item makes of a style. -/
theorem singleton {item : List Char}
    (hdashed : t.dashed = true ↔ s.dashed = true ∨ "dashed".toList = item)
    (hfront : t.frontArrow = true ↔
      s.frontArrow = true ∨ "->".toList = item ∨ "<->".toList = item)
    (hback : t.backArrow = true ↔ s.backArrow = true ∨ "<-".toList = item ∨ "<->".toList = item)
    (hthickness : t.thickness = (Thickness.ofToken? item).getD s.thickness)
    (hcolor : Decides (colorValue? item).toList s.color t.color) (hfilled : t.filled = s.filled) :
    Amends s [item] t where
  dashed := by simpa only [List.mem_singleton] using hdashed
  frontArrow := by simpa only [List.mem_singleton] using hfront
  backArrow := by simpa only [List.mem_singleton] using hback
  thickness := by
    rw [hthickness]
    cases hweight : Thickness.ofToken? item <;> simp [hweight]
  color := by
    cases hvalue : colorValue? item with
    | none => simpa [hvalue] using hcolor
    | some value => simpa [hvalue] using hcolor
  filled := hfilled

/-- An item that is no flag leaves the flags alone. -/
theorem of_not_flag {item : List Char} (h : item ∉ flagItems)
    (hflags : t.dashed = s.dashed ∧ t.frontArrow = s.frontArrow ∧ t.backArrow = s.backArrow)
    (hthickness : t.thickness = (Thickness.ofToken? item).getD s.thickness)
    (hcolor : Decides (colorValue? item).toList s.color t.color) (hfilled : t.filled = s.filled) :
    Amends s [item] t := by
  have hne : ∀ flag ∈ flagItems, flag ≠ item := fun flag hflag heq => h (heq ▸ hflag)
  obtain ⟨hdashed, hfront, hback, hboth⟩ := forall_mem_flagItems.1 hne
  refine singleton ?_ ?_ ?_ hthickness hcolor hfilled
  · simp only [hflags.1, hdashed, or_false]
  · simp only [hflags.2.1, hfront, hboth, or_false]
  · simp only [hflags.2.2, hback, hboth, or_false]

end Amends

/-! ### One item -/

/-- A flag is set by its item, and nothing else is. -/
theorem amends_flag {item : List Char} (h : item ∈ flagItems) :
    ∃ m, Modifier.read item = .ok m ∧ ∀ s, Amends s [item] (m.apply s) := by
  simp only [flagItems, List.mem_cons, List.not_mem_nil, or_false] at h
  rcases h with rfl | rfl | rfl | rfl
  · exact ⟨.dashed, rfl, fun s => .singleton (by simp [Modifier.apply]) (by simp [Modifier.apply])
      (by simp [Modifier.apply]) rfl (.inl ⟨rfl, rfl⟩) rfl⟩
  · exact ⟨.arrows true false, rfl, fun s => .singleton (by simp [Modifier.apply])
      (by simp [Modifier.apply]) (by simp [Modifier.apply]) rfl (.inl ⟨rfl, rfl⟩) rfl⟩
  · exact ⟨.arrows false true, rfl, fun s => .singleton (by simp [Modifier.apply])
      (by simp [Modifier.apply]) (by simp [Modifier.apply]) rfl (.inl ⟨rfl, rfl⟩) rfl⟩
  · exact ⟨.arrows true true, rfl, fun s => .singleton (by simp [Modifier.apply])
      (by simp [Modifier.apply]) (by simp [Modifier.apply]) rfl (.inl ⟨rfl, rfl⟩) rfl⟩

/-- What is no flag is a colour with its value, a weight, or nothing that is known. -/
theorem read_of_not_flag {item : List Char} (h : item ∉ flagItems) :
    Modifier.read item = ((colorValue? item).elim
      (.ok ((Thickness.ofToken? item).elim .other .thickness)) fun value =>
        (readColor value).map .color) := by
  have hwords : ¬ (item = "dashed".toList ∨ item = "->".toList ∨ item = "<-".toList ∨
      item = "<->".toList) := by
    simpa [flagItems] using h
  have hone := not_or.1 hwords
  rw [not_or, not_or] at hone
  rw [Modifier.read, if_neg hone.1, if_neg hone.2.1, if_neg hone.2.2.1, if_neg hone.2.2.2,
    colorValue?, if_neg hwords]
  cases hcut : cutAt ['='] item with
  | some setting =>
    obtain ⟨key, value⟩ := setting
    have hweight : Thickness.ofToken? item = none := by
      refine ofToken?_eq_none_of_mem ?_
      rw [append_of_cutAt hcut]
      simp
    by_cases hkey : sameIgnoringCase (trim key) "color".toList = true
    · simp only [hkey, if_true, Option.elim_some]
    · simp only [hkey, Bool.false_eq_true, if_false, hweight, Option.elim_some, Option.elim_none]
  | none =>
    cases hweight : Thickness.ofToken? item with
    | some t =>
      simp only [Option.elim_none, Option.elim_some, Option.isNone_some, Bool.false_eq_true,
        false_and, if_false]
    | none =>
      by_cases hink : (Ink.named? (colorName item)).isSome = true
      · simp only [hink, Option.elim_none, Option.elim_some, Option.isNone_none, true_and, if_true]
      · simp only [hink, Option.elim_none, Bool.false_eq_true, and_false, if_false]

theorem colorValue?_flag {item : List Char} (h : item ∈ flagItems) : colorValue? item = none :=
  if_pos (by simpa [flagItems] using h)

/-- No colour is a weight. -/
theorem ofToken?_of_colorValue? {item value : List Char} (h : colorValue? item = some value) :
    Thickness.ofToken? item = none := by
  unfold colorValue? at h
  split at h
  · cases h
  · cases hcut : cutAt ['='] item with
    | some setting =>
      refine ofToken?_eq_none_of_mem ?_
      rw [append_of_cutAt hcut]
      simp
    | none =>
      rw [hcut, Option.elim_none] at h
      split at h
      · rename_i hink
        exact Option.isNone_iff_eq_none.1 hink.1
      · cases h

/-- An item changes its attribute, or is refused by the percentage of its colour. -/
theorem read_cases (item : List Char) :
    (∃ m, Modifier.read item = .ok m ∧ (colorValue? item).bind badPercentage? = none ∧
      ∀ s, Amends s [item] (m.apply s)) ∨
      ∃ percent, Modifier.read item = badNumber percent ∧
        (colorValue? item).bind badPercentage? = some percent := by
  by_cases hflag : item ∈ flagItems
  · obtain ⟨m, hread, hamends⟩ := amends_flag hflag
    exact .inl ⟨m, hread, by rw [colorValue?_flag hflag]; rfl, hamends⟩
  have hread := read_of_not_flag hflag
  cases hvalue : colorValue? item with
  | none =>
    rw [hvalue] at hread
    refine .inl ⟨_, hread, rfl, fun s => ?_⟩
    cases hweight : Thickness.ofToken? item with
    | none =>
      exact .of_not_flag hflag ⟨rfl, rfl, rfl⟩ (by rw [hweight]; rfl)
        (by rw [hvalue]; exact .inl ⟨rfl, rfl⟩) rfl
    | some t =>
      exact .of_not_flag hflag ⟨rfl, rfl, rfl⟩ (by rw [hweight]; rfl)
        (by rw [hvalue]; exact .inl ⟨rfl, rfl⟩) rfl
  | some value =>
    rw [hvalue, Option.elim_some] at hread
    rcases readColor_cases value with ⟨c, hcolor, hgood⟩ | ⟨percent, hcolor, hbad⟩
    · refine .inl ⟨.color c, by rw [hread, hcolor]; rfl, hgood, fun s => ?_⟩
      exact .of_not_flag hflag ⟨rfl, rfl, rfl⟩ (by rw [ofToken?_of_colorValue? hvalue]; rfl)
        (by rw [hvalue]; exact .inr ⟨value, rfl, hcolor⟩) rfl
    · exact .inr ⟨percent, by rw [hread, hcolor]; rfl, hbad⟩

/-! ### All items -/

/-- The colour percentages that are no numbers, in the order of the items. -/
def badPercentages (items : List (List Char)) : List (List Char) :=
  (items.filterMap colorValue?).filterMap badPercentage?

/-- Items are read one by one, up to the first percentage that is no number. -/
theorem readModifiers_cases (s : Style) (items : List (List Char)) :
    (∃ t, readModifiers s items = .ok t ∧ badPercentages (items.map trim) = [] ∧
      Amends s (items.map trim) t) ∨
      ∃ percent, readModifiers s items = badNumber percent ∧
        (badPercentages (items.map trim)).head? = some percent := by
  induction items generalizing s with
  | nil => exact .inl ⟨s, rfl, rfl, .refl s⟩
  | cons item rest ih =>
    have hfaults : badPercentages ((item :: rest).map trim) =
        ((colorValue? (trim item)).bind badPercentage?).toList ++ badPercentages (rest.map trim) := by
      rw [badPercentages, badPercentages, List.map_cons, List.filterMap_filterMap,
        List.filterMap_filterMap, List.filterMap_cons]
      cases (colorValue? (trim item)).bind badPercentage? <;> rfl
    rw [readModifiers, hfaults]
    rcases read_cases (trim item) with ⟨m, hread, hgood, hamends⟩ | ⟨percent, hread, hbad⟩
    · rw [hread, hgood, Option.toList_none, List.nil_append, List.map_cons]
      rcases ih (m.apply s) with ⟨t, ht, hnone, hrest⟩ | hfault
      · exact .inl ⟨t, ht, hnone, (hamends s).trans hrest⟩
      · exact .inr hfault
    · rw [hread, hbad]
      exact .inr ⟨percent, rfl, rfl⟩

/-- Items are refused for the first percentage that is no number. -/
theorem readModifiers_eq_error_iff {s : Style} {items : List (List Char)} {e : ReadError} :
    readModifiers s items = .error e ↔
      ∃ percent, (badPercentages (items.map trim)).head? = some percent ∧
        e = .malformedNumber (String.ofList percent) := by
  rcases readModifiers_cases s items with ⟨t, hread, hgood, -⟩ | ⟨percent, hread, hbad⟩
  · rw [hread, hgood]
    simp
  · rw [hread, hbad]
    simp [badNumber, eq_comm]

/-- Items whose percentages are numbers are accepted. -/
theorem exists_readModifiers_eq_ok {items : List (List Char)}
    (h : badPercentages (items.map trim) = []) (s : Style) :
    ∃ t, readModifiers s items = .ok t ∧ Amends s (items.map trim) t := by
  rcases readModifiers_cases s items with ⟨t, hread, -, hamends⟩ | ⟨percent, -, hbad⟩
  · exact ⟨t, hread, hamends⟩
  · rw [h] at hbad
    cases hbad

/-- Items that agree in their flags, in the last weight and in the colours are read alike. -/
theorem readModifiers_congr {xs ys : List (List Char)} (s : Style)
    (hflags : ∀ flag ∈ flagItems, flag ∈ xs.map trim ↔ flag ∈ ys.map trim)
    (hweights : ((xs.map trim).filterMap Thickness.ofToken?).getLast? =
      ((ys.map trim).filterMap Thickness.ofToken?).getLast?)
    (hcolors : (xs.map trim).filterMap colorValue? = (ys.map trim).filterMap colorValue?) :
    readModifiers s xs = readModifiers s ys := by
  have hfaults : badPercentages (xs.map trim) = badPercentages (ys.map trim) := by
    rw [badPercentages, badPercentages, hcolors]
  rcases readModifiers_cases s xs with ⟨t, hread, hgood, hamends⟩ | ⟨percent, hread, hbad⟩
  · obtain ⟨u, hread', hamends'⟩ := exists_readModifiers_eq_ok (hfaults ▸ hgood) s
    rw [hread, hread', hamends.unique hamends' hflags hweights hcolors]
  · rw [hread]
    exact (readModifiers_eq_error_iff.2 ⟨percent, hfaults ▸ hbad, rfl⟩).symm

/-- What is read of each kind of item is read of the known items. -/
theorem filterMap_isKnown {β : Type} {f : List Char → Option β}
    (hf : ∀ item, (f item).isSome = true → isKnown item = true) (items : List (List Char)) :
    (items.filter isKnown).filterMap f = items.filterMap f := by
  rw [List.filterMap_filter]
  refine List.filterMap_congr fun item _ => ?_
  cases hitem : f item with
  | none => exact ite_self _
  | some b => exact if_pos (hf item (by rw [hitem]; rfl))

theorem readModifiers_isKnown (s : Style) (items : List (List Char)) :
    readModifiers s (items.filter fun item => isKnown (trim item)) = readModifiers s items := by
  have hmap : (items.filter fun item => isKnown (trim item)).map trim =
      (items.map trim).filter isKnown := by
    rw [List.filter_map]
    rfl
  refine readModifiers_congr s (fun flag hflag => ?_) ?_ ?_
  · have hknown : isKnown flag = true := by simp [isKnown, hflag]
    rw [hmap, List.mem_filter, and_iff_left hknown]
  · rw [hmap, filterMap_isKnown fun item hitem => by simp [isKnown, hitem]]
  · rw [hmap, filterMap_isKnown fun item hitem => by simp [isKnown, hitem]]

/-- A list that is too short to be put in another order. -/
theorem eq_of_perm_of_length_le_one {β : Type} {l m : List β} (h : l.Perm m) (hl : l.length ≤ 1) :
    m = l := by
  match l with
  | [] => exact List.nil_perm.1 h
  | [a] => exact (List.singleton_perm.1 h).symm
  | _ :: _ :: _ => simp at hl

/-- With one weight and one colour at most, the order does not matter. -/
theorem readModifiers_perm (s : Style) {xs ys : List (List Char)} (h : ys.Perm xs)
    (hcolors : ((xs.map trim).filterMap colorValue?).length ≤ 1)
    (hweights : ((xs.map trim).filterMap Thickness.ofToken?).length ≤ 1) :
    readModifiers s ys = readModifiers s xs := by
  have hmap := (h.map trim).symm
  have hweight := eq_of_perm_of_length_le_one (hmap.filterMap Thickness.ofToken?) hweights
  exact readModifiers_congr s (fun flag _ => hmap.mem_iff.symm) (congrArg List.getLast? hweight)
    (eq_of_perm_of_length_le_one (hmap.filterMap colorValue?) hcolors)

/-! ### The block -/

theorem takeModifiers_eq {items : List (List Char)} (rest : List Char)
    (h : ∀ item ∈ items, ',' ∉ item ∧ ']' ∉ item) :
    takeModifiers (bracketed items rest) =
      (readModifiers {} items).map fun s => (s, trimStart rest) := by
  have hclose : ']' ∉ joinWith [','] items := by
    intro hmem
    rcases mem_of_mem_joinWith hmem with hmem | ⟨item, hitem, hmem⟩
    · exact absurd hmem (by decide)
    · exact (h item hitem).2 hmem
  have hitems : readModifiers {} (splitWhere (· == ',') (joinWith [','] items)) =
      readModifiers {} items := by
    by_cases hnil : items = []
    -- Between the brackets stands nothing, which is read as one item without a meaning.
    · subst hnil
      rfl
    · rw [splitWhere_joinWith hnil fun item hitem => (h item hitem).1]
  rw [bracketed, takeModifiers, cutAt_char hclose]
  dsimp only
  rw [hitems]
  cases readModifiers {} items <;> rfl

/-- A modifier block sets the style of its items attribute by attribute: a flag by any item, the weight and
the colour by the last one. It is refused for the first colour percentage that is no number, and for
nothing else. Items that are not known have no effect, and nor has the order of the others, as long as one
of them at most sets the colour and one the weight. -/
theorem takeModifiers_bracketed {items : List (List Char)} (rest : List Char)
    (h : ∀ item ∈ items, ',' ∉ item ∧ ']' ∉ item) :
    takeModifiers (bracketed (items.filter fun item => isKnown (trim item)) rest) =
      takeModifiers (bracketed items rest) ∧
    let trimmed := items.map trim
    (∀ e, takeModifiers (bracketed items rest) = .error e ↔
      ∃ percent, (badPercentages trimmed).head? = some percent ∧
        e = .malformedNumber (String.ofList percent)) ∧
    (badPercentages trimmed = [] →
      ∃ s, takeModifiers (bracketed items rest) = .ok (s, trimStart rest) ∧
        (s.dashed = true ↔ "dashed".toList ∈ trimmed) ∧
        (s.frontArrow = true ↔ "->".toList ∈ trimmed ∨ "<->".toList ∈ trimmed) ∧
        (s.backArrow = true ↔ "<-".toList ∈ trimmed ∨ "<->".toList ∈ trimmed) ∧
        s.thickness = ((trimmed.filterMap Thickness.ofToken?).getLast?).getD .thin ∧
        Decides (trimmed.filterMap colorValue?) default s.color ∧ s.filled = false) ∧
    ∀ others : List (List Char), others.Perm items →
      (trimmed.filterMap colorValue?).length ≤ 1 →
      (trimmed.filterMap Thickness.ofToken?).length ≤ 1 →
      takeModifiers (bracketed others rest) = takeModifiers (bracketed items rest) := by
  have hblock := takeModifiers_eq rest h
  refine ⟨?_, ?_⟩
  · rw [hblock, takeModifiers_eq rest fun item hitem => h item (List.mem_filter.1 hitem).1,
      readModifiers_isKnown]
  intro trimmed
  refine ⟨fun e => ?_, fun hgood => ?_, fun others hperm hcolors hweights => ?_⟩
  · rw [hblock, ← readModifiers_eq_error_iff (s := {})]
    cases readModifiers {} items <;> simp [Except.map]
  · obtain ⟨s, hread, hamends⟩ := exists_readModifiers_eq_ok hgood {}
    have hdashed := hamends.dashed
    have hfront := hamends.frontArrow
    have hback := hamends.backArrow
    simp only [Bool.false_eq_true, false_or] at hdashed hfront hback
    exact ⟨s, by rw [hblock, hread]; rfl, hdashed, hfront, hback, hamends.thickness, hamends.color,
      hamends.filled⟩
  · rw [hblock, takeModifiers_eq rest fun item hitem => h item (hperm.mem_iff.1 hitem),
      readModifiers_perm {} hperm hcolors hweights]

/-- Two weights and two colours among flags and an unknown setting, and a block with a word for a
percentage, in either order. -/
theorem takeModifiers_bracketed_mixed :
    (let items := [" dashed", "Very  THICK", "line cap=round", "<->", "color = RED!25", "thin ",
        " blue ! 50"].map String.toList
      ∃ s, takeModifiers (bracketed items " (0,0)".toList) = .ok (s, "(0,0)".toList) ∧
        s.dashed = true ∧ s.frontArrow = true ∧ s.backArrow = true ∧ s.thickness = .thin ∧
        readColor "blue ! 50".toList = .ok s.color ∧ s.filled = false) ∧
    let items := ["->", "red!lots", "thick"].map String.toList
    takeModifiers (bracketed items []) = .error (.malformedNumber "lots") ∧
      takeModifiers (bracketed items.reverse []) = .error (.malformedNumber "lots") := by
  constructor
  · intro items
    have hclean : ∀ item ∈ items, ',' ∉ item ∧ ']' ∉ item := by decide
    obtain ⟨s, hread, hdashed, hfront, hback, hthickness, hcolor, hfilled⟩ :=
      (takeModifiers_bracketed " (0,0)".toList hclean).2.2.1 (by decide +kernel)
    refine ⟨s, hread, hdashed.2 (by decide), hfront.2 (by decide), hback.2 (by decide),
      hthickness.trans (by decide), ?_, hfilled⟩
    have hvalues : ((items.map trim).filterMap colorValue?).getLast? =
        some "blue ! 50".toList := by decide
    rcases hcolor with ⟨hnone, -⟩ | ⟨v, hlast, hv⟩
    · rw [hnone] at hvalues
      cases hvalues
    · obtain rfl := Option.some.inj (hvalues.symm.trans hlast)
      exact hv
  · intro items
    have hclean : ∀ item ∈ items, ',' ∉ item ∧ ']' ∉ item := by decide
    obtain ⟨-, herror, -, hperm⟩ := takeModifiers_bracketed [] hclean
    have hbad := (herror _).2 ⟨"lots".toList, by decide +kernel, rfl⟩
    exact ⟨hbad, (hperm _ (List.reverse_perm _) (by decide) (by decide)).trans hbad⟩

end Draftboard.Picture
