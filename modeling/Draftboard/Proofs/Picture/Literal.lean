import Draftboard.Proofs.Number.Overflow
import Draftboard.Proofs.Picture.Numeral

/-!
# Draftboard.Proofs.Picture.Literal

What a literal spells.

Without its sign a literal is a word for infinity, the word for what is no number, or the text of a
decimal; no text is two of these (`Literal.cases_of_read?`). So the text alone says whether the value is
finite (`Literal.isFinite_iff`) and whether it is a number (`Literal.unpack_eq_notANumber_iff`).
-/

namespace Draftboard

open Text (sameIgnoringCase)

namespace Literal

variable {s : List Char} {x : Float}

/-- A literal without its sign. -/
def unsigned (s : List Char) : List Char := (takeSign s).2

/-- The literal spells a decimal below the overflow. -/
def IsFinite (s : List Char) : Prop :=
  ∃ d, readDecimal? (unsigned s) = some d ∧ d.digits * (10 : ℝ) ^ d.exponent < Exact.overflow

/-- The literal is the word for what is no number, with a sign or without one. -/
def IsNaN (s : List Char) : Prop := sameIgnoringCase (unsigned s) "nan".toList = true

instance (s : List Char) : Decidable (IsNaN s) := inferInstanceAs (Decidable (_ = _))

/-- A word is not the text of a decimal: it starts with neither a digit nor a point. -/
theorem readDecimal?_of_word {first : Char} {rest : List Char}
    (hfirst : ('.' :: decimalDigits).all (fun c => c.toLower != first.toLower) = true)
    (h : sameIgnoringCase s (first :: rest) = true) : readDecimal? s = none := by
  cases s with
  | nil => rfl
  | cons c r =>
    have hc : c.toLower = first.toLower := (List.cons.inj (eq_of_beq h)).1
    have hnot : c ∉ '.' :: decimalDigits := fun hmem => by
      have hne := List.all_eq_true.1 hfirst c hmem
      rw [hc, bne_self_eq_false] at hne
      cases hne
    have hpoint : c ≠ '.' := fun h => hnot (h ▸ List.mem_cons_self)
    have hdigit : c.isDigit = false :=
      Bool.eq_false_iff.2 fun hd => hnot (List.mem_cons_of_mem _ (isDigit_iff.1 hd))
    have hfraction : takeFraction (c :: r) = ([], c :: r) := by
      unfold takeFraction
      split
      · rename_i heq
        exact absurd (List.cons.inj heq).1 hpoint
      · rfl
    simp [readDecimal?, hdigit, hfraction]

/-- The three kinds of literal. -/
theorem cases_of_read? (h : read? s = some x) :
    ∃ v, x = (if (takeSign s).1 then -v else v) ∧
      (¬ IsNaN s ∧ readDecimal? (unsigned s) = none ∧ v = infinity ∨
        IsNaN s ∧ readDecimal? (unsigned s) = none ∧ v = nan ∨
        ∃ d, ¬ IsNaN s ∧ readDecimal? (unsigned s) = some d ∧ v = d.toFloat) := by
  change (readMagnitude? (unsigned s)).map (fun v => if (takeSign s).1 then -v else v) = _ at h
  obtain ⟨v, hv, rfl⟩ := Option.map_eq_some_iff.1 h
  refine ⟨v, rfl, ?_⟩
  unfold IsNaN
  unfold readMagnitude? at hv
  split at hv
  · rename_i hword
    obtain rfl := Option.some.inj hv
    rcases Bool.or_eq_true_iff.1 hword with hword | hword <;>
      refine .inl ⟨fun hnan => ?_, readDecimal?_of_word (by decide) hword, rfl⟩ <;>
      exact absurd ((eq_of_beq hword).symm.trans (eq_of_beq hnan)) (by decide)
  · split at hv
    · rename_i hword
      exact .inr (.inl ⟨hword, readDecimal?_of_word (by decide) hword, (Option.some.inj hv).symm⟩)
    · rename_i hword
      obtain ⟨d, hd, rfl⟩ := Option.map_eq_some_iff.1 hv
      exact .inr (.inr ⟨d, hword, hd, rfl⟩)

/-- A sign changes neither whether a number is finite nor whether it is one. -/
theorem unpack_signed (negative : Bool) (v : Float) :
    (if negative then -v else v).isFinite = v.isFinite ∧
      (Exact.unpack (if negative then -v else v) = .notANumber ↔ Exact.unpack v = .notANumber) := by
  cases negative with
  | false => exact ⟨rfl, Iff.rfl⟩
  | true =>
    refine ⟨Exact.isFinite_neg v, ?_⟩
    rw [if_pos rfl, Exact.unpack_neg]
    cases Exact.unpack v with
    | notANumber => exact iff_of_true rfl rfl
    | zero | infinity | finite => exact iff_of_false nofun nofun

/-- A literal is finite if and only if it spells a decimal below the overflow. -/
theorem isFinite_iff (h : read? s = some x) : x.isFinite = true ↔ IsFinite s := by
  obtain ⟨v, rfl, hv⟩ := cases_of_read? h
  rw [(unpack_signed _ v).1]
  unfold IsFinite
  rcases hv with ⟨-, hd, rfl⟩ | ⟨-, hd, rfl⟩ | ⟨d, -, hd, rfl⟩ <;> rw [hd]
  · exact iff_of_false Bool.false_ne_true (by simp)
  · exact iff_of_false Bool.false_ne_true (by simp)
  · simp [Exact.isFinite_toFloat_iff]

/-- A literal is no number if and only if it is the word for that. -/
theorem unpack_eq_notANumber_iff (h : read? s = some x) :
    Exact.unpack x = .notANumber ↔ IsNaN s := by
  obtain ⟨v, rfl, hv⟩ := cases_of_read? h
  rw [(unpack_signed _ v).2]
  rcases hv with ⟨hnan, -, rfl⟩ | ⟨hnan, -, rfl⟩ | ⟨d, hnan, -, rfl⟩
  · exact iff_of_false nofun hnan
  · exact iff_of_true rfl hnan
  · exact iff_of_false (Exact.unpack_toFloat_ne d) hnan

end Literal

end Draftboard
