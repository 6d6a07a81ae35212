import Draftboard.Proofs.Number.Narrow
import Draftboard.Proofs.Picture.Literal
import Draftboard.Proofs.Picture.Reread

/-!
# Draftboard.Proofs.Picture.Tint

The tints of the shapes that are read, and the colours that are drawn of them.

* Of the colour values among the modifiers of a statement the last one decides (`colorValues`,
  `Statement.decides_of_read`): its percentage is divided by a hundred and moved into the range from zero
  to one, and without a percentage the tint is full (`Decides.exists_tinted`).
* What is no number stays none in all of this. Every other tint is from zero to one, and then so is each
  component of the colour on either background (`Color.inUnit_tinted_iff`).
* So the tint of a shape is in its range if and only if the percentage that decides is not the word for what
  is no number (`tint_iff_of_read`); with this word it is not (`tint_not_a_number`).
-/

namespace Draftboard

open Text Exact

/-! ### Colours as drawn -/

/-- All components are from zero to one. -/
def Rgb.InUnit (c : Rgb) : Prop := InUnit32 c.red ∧ InUnit32 c.green ∧ InUnit32 c.blue

instance (c : Rgb) : Decidable c.InUnit :=
  inferInstanceAs (Decidable ((_ ∧ _) ∧ (_ ∧ _) ∧ _ ∧ _))

namespace Color

theorem inUnit_rgb : ∀ ink ∈ Ink.all, InUnit (Scalar.ratio ink.rgb.1 255) ∧
    InUnit (Scalar.ratio ink.rgb.2.1 255) ∧ InUnit (Scalar.ratio ink.rgb.2.2 255) := by
  decide +kernel

/-- A component is a mixture of the ink and the background. -/
theorem inUnit32_component (light : Bool) {tint : Float} (h : InUnit tint) {level : ℕ}
    (hlevel : InUnit (Scalar.ratio level 255)) : InUnit32 (component light tint level) := by
  refine inUnit32_narrow (InUnit.mix ?_ h ?_)
  · split
    · exact hlevel
    · exact inUnit_one
  · split
    · exact inUnit_one
    · exact inUnit_zero

/-- What is no number is drawn as none. -/
theorem not_inUnit32_component (light : Bool) {tint : Float} (h : unpack tint = .notANumber)
    (level : ℕ) : ¬ InUnit32 (component light tint level) :=
  not_inUnit32_narrow (unpack_add_of_notANumber _ (unpack_mul_of_notANumber _ h))

/-- A tint is moved into its range, and the colour is drawn in its range, if and only if the tint is a
number. -/
theorem inUnit_tinted_iff (ink : Ink) (x : Float) :
    (InUnit (tinted ink x).tint ↔ unpack x ≠ .notANumber) ∧
      ∀ light, ((tinted ink x).display light).InUnit ↔ unpack x ≠ .notANumber := by
  by_cases hx : unpack x = .notANumber
  · have htint : unpack (tinted ink x).tint = .notANumber :=
      (congrArg unpack (clamp_of_notANumber hx)).trans hx
    have hno : ¬ unpack x ≠ .notANumber := fun h => h hx
    exact ⟨iff_of_false (not_inUnit_of_notANumber htint) hno, fun light =>
      iff_of_false (fun h => not_inUnit32_component light htint _ h.1) hno⟩
  · have htint : InUnit (tinted ink x).tint := inUnit_clamp hx
    obtain ⟨hred, hgreen, hblue⟩ := inUnit_rgb ink ink.mem_all
    exact ⟨iff_of_true htint hx, fun light => iff_of_true ⟨inUnit32_component light htint hred,
      inUnit32_component light htint hgreen, inUnit32_component light htint hblue⟩ hx⟩

end Color

/-! ### Colour values -/

namespace Picture

/-- The colour value of an item: what stands behind the sign of a colour setting, or an item that names
an ink. -/
def colorValue? (item : List Char) : Option (List Char) :=
  if item = "dashed".toList ∨ item = "->".toList ∨ item = "<-".toList ∨ item = "<->".toList then none
  else (cutAt ['='] item).elim
    (if (Thickness.ofToken? item).isNone ∧ (Ink.named? (colorName item)).isSome then some item
      else none)
    fun setting => if sameIgnoringCase (trim setting.1) "color".toList then some setting.2 else none

/-- The percentage of a colour value. -/
def percentage? (value : List Char) : Option (List Char) :=
  (cutAt ['!'] (trim value)).map fun parts => trim parts.2

/-- The modifiers in the brackets that a text starts with. -/
def bracketItems (text : List Char) : List (List Char) :=
  if text.head? = some '[' then
    ((cutAt [']'] text.tail).map fun parts => splitWhere (· == ',') parts.1).getD []
  else []

/-- The colour values of the modifiers of a statement, in order. -/
def colorValues (statement : List Char) : List (List Char) :=
  ((bracketItems (takeCommand statement).2).map trim).filterMap colorValue?

/-- A colour is that of the last value, or the one before if there is no value. -/
def Decides (values : List (List Char)) (start c : Color) : Prop :=
  values = [] ∧ c = start ∨ ∃ v, values.getLast? = some v ∧ readColor v = .ok c

/-- An item changes the colour if and only if it has a colour value, which gives it. -/
theorem cases_of_readModifier {item : List Char} {m : Modifier} (h : Modifier.read item = .ok m) :
    (∃ v c, colorValue? item = some v ∧ readColor v = .ok c ∧ m = .color c) ∨
      colorValue? item = none ∧ ∀ s, (m.apply s).color = s.color := by
  by_cases hword : item = "dashed".toList ∨ item = "->".toList ∨ item = "<-".toList ∨
      item = "<->".toList
  -- The four words are no colours.
  · refine .inr ⟨if_pos hword, fun s => ?_⟩
    rcases hword with rfl | rfl | rfl | rfl <;> obtain rfl := Except.ok.inj h <;> rfl
  · have hwords := not_or.1 hword
    rw [not_or, not_or] at hwords
    rw [Modifier.read, if_neg hwords.1, if_neg hwords.2.1, if_neg hwords.2.2.1,
      if_neg hwords.2.2.2] at h
    rw [colorValue?, if_neg hword]
    -- A colour is read from a setting or from an item that starts with its name.
    split at h
    · rename_i hcut
      rw [hcut, Option.elim_some]
      split at h
      · rename_i hkey
        obtain ⟨c, hread, rfl⟩ := exists_of_map_eq_ok h
        exact .inl ⟨_, c, if_pos hkey, hread, rfl⟩
      · rename_i hkey
        obtain rfl := Except.ok.inj h
        exact .inr ⟨if_neg hkey, fun s => rfl⟩
    · rename_i hcut
      rw [hcut, Option.elim_none]
      split at h
      · rename_i hthickness
        obtain rfl := Except.ok.inj h
        exact .inr ⟨if_neg fun hcolor => by simp [hthickness] at hcolor, fun s => rfl⟩
      · rename_i hthickness
        split at h
        · rename_i hink
          obtain ⟨c, hread, rfl⟩ := exists_of_map_eq_ok h
          exact .inl ⟨item, c, if_pos ⟨by rw [hthickness]; rfl, hink⟩, hread, rfl⟩
        · rename_i hink
          obtain rfl := Except.ok.inj h
          exact .inr ⟨if_neg fun hcolor => hink hcolor.2, fun s => rfl⟩

theorem decides_of_readModifiers {items : List (List Char)} {s t : Style}
    (h : readModifiers s items = .ok t) :
    Decides ((items.map trim).filterMap colorValue?) s.color t.color := by
  induction items generalizing s with
  | nil =>
    obtain rfl := Except.ok.inj h
    exact .inl ⟨rfl, rfl⟩
  | cons item rest ih =>
    rw [readModifiers] at h
    split at h
    · rename_i m hread
      have hrest := ih h
      rcases cases_of_readModifier hread with ⟨v, c, hvalue, hcolor, rfl⟩ | ⟨hvalue, hsame⟩
      · rw [List.map_cons, List.filterMap_cons_some hvalue]
        right
        rcases hrest with ⟨hnone, ht⟩ | ⟨w, hlast, hw⟩
        · exact ⟨v, by rw [hnone]; rfl, ht ▸ hcolor⟩
        · exact ⟨w, by rw [List.getLast?_cons, hlast]; rfl, hw⟩
      · rw [List.map_cons, List.filterMap_cons_none hvalue, ← hsame s]
        exact hrest
    · cases h

/-- The style that is taken off a text is read from its modifiers. -/
theorem readModifiers_of_takeModifiers {text body : List Char} {s : Style}
    (h : takeModifiers text = .ok (s, body)) : readModifiers {} (bracketItems text) = .ok s := by
  unfold takeModifiers at h
  split at h
  · rename_i inner
    rw [bracketItems, List.head?_cons, if_pos rfl, List.tail_cons]
    split at h
    · cases h
    · rename_i hcut
      rw [hcut]
      split at h
      · rename_i hread
        obtain ⟨rfl, -⟩ := Prod.mk.inj (Except.ok.inj h)
        exact hread
      · cases h
  · rename_i hblock
    obtain ⟨rfl, -⟩ := Prod.mk.inj (Except.ok.inj h)
    have hhead : ¬ text.head? = some '[' := fun hhead => by
      obtain ⟨inner, rfl⟩ := List.head?_eq_some_iff.1 hhead
      exact hblock inner rfl
    rw [bracketItems, if_neg hhead]
    rfl

/-- The last colour value of a statement decides the colour. -/
theorem Statement.decides_of_read {t : List Char} {st : Statement} (h : Statement.read t = .ok st) :
    Decides (colorValues t) default st.style.color := by
  obtain ⟨body, style, fills, -, hmodifiers, hlabel | hcircle | hpath⟩ := cases_of_read h <;>
    have hdecides := decides_of_readModifiers (readModifiers_of_takeModifiers hmodifiers)
  · obtain ⟨anchor, text, rfl, -, -⟩ := braces_of_readLabel hlabel
    exact hdecides
  · obtain ⟨center, radius, rfl⟩ := of_readCircle hcircle
    exact hdecides
  · rcases of_readPath hpath with ⟨start, stop, rfl⟩ | ⟨vertices, -, rfl⟩ <;> exact hdecides

/-! ### Percentages -/

/-- A percentage is the word for what is no number. -/
def NoPercentage (percent : Option (List Char)) : Prop := ∃ text ∈ percent, Literal.IsNaN text

/-- The tint of a colour value is the percentage, divided by a hundred and moved into its range, and full
without a percentage. -/
theorem exists_of_readColor {value : List Char} {c : Color} (h : readColor value = .ok c) :
    ∃ ink x, c = .tinted ink x ∧ (unpack x = .notANumber ↔ NoPercentage (percentage? value)) := by
  unfold readColor at h
  dsimp only at h
  split at h
  · rename_i x htint
    obtain rfl := Except.ok.inj h
    refine ⟨_, x, rfl, ?_⟩
    unfold readTint at htint
    unfold NoPercentage percentage?
    split at htint
    · rename_i hcut
      obtain rfl := Except.ok.inj htint
      rw [hcut]
      exact iff_of_false nofun nofun
    · rename_i hcut
      rw [hcut]
      split at htint
      · rename_i y hread
        obtain rfl := Except.ok.inj htint
        have hhundred : ∃ s m e hm, unpack (Scalar.ofNat 100) = .finite s m e hm := ⟨_, _, _, _, rfl⟩
        have hquotient : unpack (y / Scalar.ofNat 100) = .notANumber ↔ unpack y = .notANumber :=
          ⟨fun hq => by_contra fun hy => (mul_ne_and_div_ne hy hhundred).2 hq,
            unpack_div_of_notANumber _⟩
        rw [hquotient, Literal.unpack_eq_notANumber_iff hread]
        simp
      · cases htint
  · cases h

namespace Decides

variable {values : List (List Char)} {c : Color}

/-- The tint is the percentage that decides, divided by a hundred and moved into its range, and full without
one. -/
theorem exists_tinted (h : Decides values default c) : ∃ ink x, c = .tinted ink x ∧
    (unpack x = .notANumber ↔ NoPercentage (values.getLast?.bind percentage?)) := by
  rcases h with ⟨rfl, rfl⟩ | ⟨v, hlast, hread⟩
  · exact ⟨.black, 1, rfl, iff_of_false nofun nofun⟩
  · rw [hlast]
    exact exists_of_readColor hread

/-- The tint is in its range, and the colour is drawn in its range on either background, if and only if
the percentage that decides is a number. -/
theorem inUnit_iff (h : Decides values default c) :
    (InUnit c.tint ↔ ¬ NoPercentage (values.getLast?.bind percentage?)) ∧
      ∀ light, (c.display light).InUnit ↔ ¬ NoPercentage (values.getLast?.bind percentage?) := by
  obtain ⟨ink, x, rfl, hx⟩ := h.exists_tinted
  rw [← hx]
  exact Color.inUnit_tinted_iff ink x

end Decides

/-- Of each shape of a picture the tint is from zero to one, and the components of the colour as drawn are
on either background, if and only if the percentage of the last colour value of its statement is not the
word for what is no number. -/
theorem tint_iff_of_read {placement : Placement} {text : List Char} {shapes : List (Shape Float)}
    (h : read placement text = .ok shapes) :
    List.Forall₂ (fun t shape =>
      let percent := (colorValues t).getLast?.bind percentage?
      ((0 ≤ shape.style.color.tint ∧ shape.style.color.tint ≤ 1) ↔ ¬ NoPercentage percent) ∧
        ∀ light, (shape.style.color.display light).InUnit ↔ ¬ NoPercentage percent)
      (statementTexts text) shapes := by
  obtain ⟨all, hall, rfl⟩ := exists_statements_of_read h
  rw [List.forall₂_map_right_iff]
  exact hall.imp fun t st hread => (Statement.decides_of_read hread).inUnit_iff

/-- The last of two percentages decides, whether it is a number or the other one is. -/
theorem tint_iff_of_two_percentages :
    let text := ("\\draw[color = red!nan, blue!150] (0,0) -- (1,0);" ++
      "\\draw[Blue!50, color=green ! -NaN] (0,0) -- (1,0);").toList
    ∃ first second, read .identity text = .ok [first, second] ∧
      ((0 ≤ first.style.color.tint ∧ first.style.color.tint ≤ 1) ∧
        ∀ light, (first.style.color.display light).InUnit) ∧
      ¬ (0 ≤ second.style.color.tint ∧ second.style.color.tint ≤ 1) ∧
        ∀ light, ¬ (second.style.color.display light).InUnit := by
  intro text
  have hpercents : (statementTexts text).map (fun t => (colorValues t).getLast?.bind percentage?) =
      [some "150".toList, some "-NaN".toList] := by
    decide +kernel
  have hcount : (read .identity text).map List.length = .ok 2 := by decide +kernel
  obtain ⟨shapes, hread, -⟩ := exists_of_map_eq_ok hcount
  have hall : List.Forall₂ (fun percent shape =>
      ((0 ≤ shape.style.color.tint ∧ shape.style.color.tint ≤ 1) ↔ ¬ NoPercentage percent) ∧
        ∀ light, (shape.style.color.display light).InUnit ↔ ¬ NoPercentage percent)
      [some "150".toList, some "-NaN".toList] shapes := by
    rw [← hpercents, List.forall₂_map_left_iff]
    exact tint_iff_of_read hread
  obtain ⟨first, rest, hfirst, hrest, rfl⟩ := List.forall₂_cons_left_iff.1 hall
  obtain ⟨second, none, hsecond, hnone, rfl⟩ := List.forall₂_cons_left_iff.1 hrest
  obtain rfl := List.forall₂_nil_left_iff.1 hnone
  have hnumber : ¬ NoPercentage (some "150".toList) := by
    rintro ⟨percent, hpercent, hnan⟩
    obtain rfl := Option.some.inj hpercent
    exact absurd hnan (by decide)
  have hnan : NoPercentage (some "-NaN".toList) := ⟨_, rfl, by decide⟩
  exact ⟨first, second, hread, ⟨hfirst.1.2 hnumber, fun light => (hfirst.2 light).2 hnumber⟩,
    fun h => hsecond.1.1 h hnan, fun light h => (hsecond.2 light).1 h hnan⟩

/-- A line with a percentage that is no number is read, and its tint and its color are in no range. -/
theorem tint_not_a_number :
    ∃ shapes, read .identity "\\draw[color = red!nan] (0,0) -- (1,0);".toList = .ok shapes ∧
      ∃ shape ∈ shapes, ¬ (0 ≤ shape.style.color.tint ∧ shape.style.color.tint ≤ 1) ∧
        ∀ light, ¬ (shape.style.color.display light).InUnit := by
  have hcheck : (read .identity "\\draw[color = red!nan] (0,0) -- (1,0);".toList).map (fun shapes =>
      shapes.any fun shape => decide (¬ Exact.InUnit shape.style.color.tint ∧
        ∀ light, ¬ (shape.style.color.display light).InUnit)) = .ok true := by
    decide +kernel
  obtain ⟨shapes, hread, hany⟩ := exists_of_map_eq_ok hcheck
  obtain ⟨shape, hshape, houtside⟩ := List.any_eq_true.1 hany
  exact ⟨shapes, hread, shape, hshape, of_decide_eq_true houtside⟩

end Picture

end Draftboard
