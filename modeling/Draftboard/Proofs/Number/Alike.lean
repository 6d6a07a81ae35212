import Draftboard.Proofs.Number.Equality

/-!
# Draftboard.Proofs.Number.Alike

Numbers that a computation may confuse: those that compare as equal, and what is no number with itself.

* Numbers that are alike are the same or both zeros (`Alike.same_or_zeros`), so being alike is an
  equivalence, which equality is not.
* Sums and products of what is alike are alike (`Alike.add`, `Alike.mul_right`). A sign of zero can
  reach a result only as the sign of a zero again; an infinity times zero is no number for either sign.
* Where no signs are written, equal numbers are the same (`eq_of_beq`).
-/

namespace Draftboard.Exact

open Float.Model (UnpackedFloat Format)
open Float.Model.UnpackedFloat

variable {x y z w : Float} {s t : Sign}

/-- The numbers compare as equal or are the same. -/
def Alike (x y : Float) : Prop := x = y ∨ (x == y) = true

namespace Alike

theorem refl (x : Float) : Alike x x := .inl rfl

theorem of_zeros (hx : unpack x = .zero s) (hy : unpack y = .zero t) : Alike x y :=
  .inr (beq_iff.2 (.inl ⟨s, t, hx, hy⟩))

theorem same_or_zeros (h : Alike x y) :
    x = y ∨ ∃ s t, unpack x = .zero s ∧ unpack y = .zero t := by
  rcases h with h | h
  · exact .inl h
  · rcases beq_iff.1 h with hzeros | ⟨hsame, -⟩
    · exact .inr hzeros
    · exact .inl hsame

theorem symm (h : Alike x y) : Alike y x := by
  rcases h with h | h
  · exact .inl h.symm
  · exact .inr (PartialEquivBEq.symm h)

theorem trans (h : Alike x y) (h' : Alike y z) : Alike x z := by
  rcases h with rfl | h
  · exact h'
  · rcases h' with rfl | h'
    · exact .inr h
    · exact .inr (PartialEquivBEq.trans h h')

/-! ### Sums and products -/

/-- What is added to a zero stays as it is, but for the sign of another zero. -/
theorem zero_add (hx : unpack x = .zero s) (z : Float) : Alike (x + z) z := by
  have hadd : x + z = pack (UnpackedFloat.add Format.binary64 (.zero s) (unpack z)) := by
    rw [← hx]
    rfl
  cases hz : unpack z with
  | zero t =>
    rw [hadd, hz]
    cases s <;> cases t <;> exact of_zeros (unpack_pack_zero _) hz
  | _ =>
    have hsum : x + z = pack (unpack z) := by
      rw [hadd, hz]
      rfl
    exact .inl (hsum.trans (pack_unpack z))

theorem add_zero (hx : unpack x = .zero s) (z : Float) : Alike (z + x) z := by
  have hcomm : UnpackedFloat.add Format.binary64 (unpack z) (.zero s) =
      UnpackedFloat.add Format.binary64 (.zero s) (unpack z) := by
    cases unpack z with
    | zero t => cases s <;> cases t <;> rfl
    | _ => rfl
  have hadd : z + x = x + z := by
    rw [← hx] at hcomm
    exact congrArg pack hcomm
  rw [hadd]
  exact zero_add hx z

theorem add (h : Alike x y) (h' : Alike z w) : Alike (x + z) (y + w) := by
  obtain rfl | ⟨s, t, hx, hy⟩ := h.same_or_zeros
  · obtain rfl | ⟨s, t, hz, hw⟩ := h'.same_or_zeros
    · exact .refl _
    · exact (add_zero hz x).trans (add_zero hw x).symm
  · exact ((zero_add hx z).trans h').trans (zero_add hy w).symm

theorem mul_right (h : Alike x y) (z : Float) : Alike (x * z) (y * z) := by
  obtain rfl | ⟨s, t, hx, hy⟩ := h.same_or_zeros
  · exact .refl _
  · have hmul {a : Float} {r : Sign} (ha : unpack a = .zero r) :
        a * z = pack (UnpackedFloat.mul Format.binary64 (.zero r) (unpack z)) := by
      rw [← ha]
      rfl
    rw [hmul hx, hmul hy]
    cases unpack z with
    | notANumber | infinity => exact .refl _
    | zero | finite => exact of_zeros (unpack_pack_zero _) (unpack_pack_zero _)

end Alike

/-- Equal numbers that have no sign are the same: nothing else tells zeros apart. -/
theorem eq_of_beq (hx : isNegative x = false) (hy : isNegative y = false) (h : (x == y) = true) :
    x = y := by
  obtain h | ⟨s, t, hzx, hzy⟩ := Alike.same_or_zeros (.inr h)
  · exact h
  · have hs := signOf_unpack hx
    have ht := signOf_unpack hy
    rw [hzx] at hs
    rw [hzy] at ht
    obtain rfl : s = .positive := hs
    obtain rfl : t = .positive := ht
    rw [eq_pack_zero hzx, eq_pack_zero hzy]

end Draftboard.Exact
