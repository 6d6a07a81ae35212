import Draftboard.Proofs.Number.Arithmetic

/-!
# Draftboard.Proofs.Number.Order

Numbers that are not below zero.

A number is at least zero if it is a zero of either sign, a positive number or positive infinity; what
is no number is neither at least zero nor below it (`zero_le_iff`). The number of a decimal is at least
zero (`zero_le_toFloat`), and so is the product of such a number and a positive finite one
(`zero_le_mul`).
-/

namespace Draftboard.Exact

open Float.Model (UnpackedFloat Format)
open Float.Model.UnpackedFloat

/-- The parts of a number that is at least zero. -/
def AtLeastZero : UnpackedFloat → Prop
  | .zero _ | .finite .positive .. | .infinity .positive => True
  | _ => False

theorem zero_le_iff {x : Float} : 0 ≤ x ↔ AtLeastZero (unpack x) := by
  have hle : 0 ≤ x ↔ (unpack 0).le (unpack x) = true :=
    ⟨fun h => of_decide_eq_true h, fun h => decide_eq_true h⟩
  rw [hle, unpack_zero]
  cases unpack x with
  | notANumber => exact iff_of_false Bool.false_ne_true id
  | zero s => cases s <;> exact iff_of_true rfl trivial
  | finite s m e h =>
    cases s with
    | positive => exact iff_of_true rfl trivial
    | negative => exact iff_of_false Bool.false_ne_true id
  | infinity s =>
    cases s with
    | positive => exact iff_of_true rfl trivial
    | negative => exact iff_of_false Bool.false_ne_true id

/-- Packing makes no number of nothing else. -/
theorem unpack_pack_ne_notANumber {u : UnpackedFloat} (hu : u ≠ .notANumber) :
    unpack (pack u) ≠ .notANumber := by
  have hbits : unpackExponent (Float.Model.UnpackedFloat.pack Format.binary64 u) ≠ -1#11 ∨
      unpackMantissa (Float.Model.UnpackedFloat.pack Format.binary64 u) = 0#52 := by
    unfold Float.Model.UnpackedFloat.pack
    cases u with
    | notANumber => exact absurd rfl hu
    | zero s => exact .inr unpackMantissa_packComponents
    | infinity s => exact .inr unpackMantissa_packComponents
    | finite s m e hm =>
      dsimp only
      split
      · exact .inr unpackMantissa_packComponents
      · rename_i hexponent
        change ¬ 2 ^ 11 ≤ _ at hexponent
        left
        split
        · rw [unpackExponent_packComponents]
          intro h
          have hnat := congrArg BitVec.toNat h
          rw [BitVec.toNat_ofNat, Nat.mod_eq_of_lt (by omega)] at hnat
          change _ = 2047 at hnat
          omega
        · rw [unpackExponent_packComponents]
          decide
  have hcases := unpack_cases (Float.Model.UnpackedFloat.pack Format.binary64 u)
  intro hnan
  change Float.Model.UnpackedFloat.unpack Format.binary64
    (Float.Model.UnpackedFloat.pack Format.binary64 u) = .notANumber at hnan
  rw [hnan] at hcases
  -- Only an exponent of ones with a mantissa stands for no number.
  obtain ⟨-, -, h⟩ | ⟨hexponent, hmantissa, -⟩ | ⟨-, -, h⟩ | ⟨-, _, h⟩ | ⟨-, -, _, h⟩ := hcases
  · cases h
  · exact hbits.elim (fun h => h hexponent) hmantissa
  · cases h
  · cases h
  · cases h

theorem zero_le_of_isNegative {x : Float} (hx : isNegative x = false)
    (hnan : unpack x ≠ .notANumber) : 0 ≤ x := by
  rw [zero_le_iff]
  have hs := signOf_unpack hx
  cases hu : unpack x with
  | notANumber => exact absurd hu hnan
  | zero s => trivial
  | finite s | infinity s =>
    rw [hu] at hs
    obtain rfl : s = .positive := hs
    trivial

/-- Parts at least zero are packed to a number at least zero. -/
theorem zero_le_pack {u : UnpackedFloat} (h : AtLeastZero u) : 0 ≤ pack u := by
  cases u with
  | notANumber => exact h.elim
  | zero s =>
    rw [zero_le_iff, unpack_pack_zero]
    trivial
  | finite s m e hm =>
    cases s with
    | negative => exact h.elim
    | positive =>
      exact zero_le_of_isNegative (isNegative_eq_false_of_positive rfl)
        (unpack_pack_ne_notANumber nofun)
  | infinity s =>
    cases s with
    | negative => exact h.elim
    | positive => rw [zero_le_iff]; trivial

/-- What holds of either branch holds of the choice. -/
theorem of_dite (P : UnpackedFloat → Prop) {p : Prop} [Decidable p] {u : p → UnpackedFloat}
    {v : ¬ p → UnpackedFloat} (hu : ∀ h, P (u h)) (hv : ∀ h, P (v h)) : P (dite p u v) := by
  by_cases hp : p
  · rw [dif_pos hp]
    exact hu hp
  · rw [dif_neg hp]
    exact hv hp

theorem atLeastZero_roundWithAccuracy (m : Nat) (e : Int) (a : Accuracy) :
    AtLeastZero (roundWithAccuracy Format.binary64 .positive m e a) :=
  of_dite AtLeastZero (fun _ => trivial) fun _ => trivial

/-- The number of a decimal is at least zero. -/
theorem zero_le_toFloat (d : Decimal) : 0 ≤ d.toFloat := by
  refine zero_le_pack (u := ofScientific Format.binary64 d.digits d.exponent) ?_
  unfold ofScientific
  refine of_dite AtLeastZero (fun _ => trivial) fun _ => ?_
  -- The exponent is too large or too small, or it is that of a product or of a quotient.
  refine of_dite AtLeastZero (fun _ => trivial) fun _ => of_dite AtLeastZero (fun _ => trivial) fun _ => ?_
  exact of_dite AtLeastZero (fun _ => atLeastZero_roundWithAccuracy _ _ _)
    fun _ => atLeastZero_roundWithAccuracy _ _ _

/-- A negated number that is not below zero is a zero, if the number is at least zero. -/
theorem zero_le_neg {x : Float} (hx : 0 ≤ x) (hneg : ¬ -x < 0) : 0 ≤ -x := by
  rw [zero_le_iff] at hx ⊢
  have hlt : ¬ (unpack (-x)).lt (unpack 0) = true := fun h => hneg (decide_eq_true h)
  rw [unpack_neg] at hlt ⊢
  cases hu : unpack x with
  | notANumber => rw [hu] at hx; exact hx.elim
  | zero s => trivial
  | finite s | infinity s =>
    rw [hu] at hx hlt
    cases s with
    | negative => exact hx.elim
    | positive => exact absurd rfl hlt

/-- A number at least zero stays so under a positive finite factor. -/
theorem zero_le_mul {x y : Float} (hx : 0 ≤ x) (hy : 0 < y) (hfinite : y.isFinite = true) :
    0 ≤ x * y := by
  have hmul : x * y = pack (UnpackedFloat.mul Format.binary64 (unpack x) (unpack y)) := rfl
  have hlt : (unpack 0).lt (unpack y) = true := of_decide_eq_true hy
  rw [zero_le_iff] at hx
  rw [hmul]
  refine zero_le_pack ?_
  rcases cases_of_isFinite hfinite with ⟨t, hyu⟩ | ⟨t, n, f, hn, hyu⟩ <;> rw [hyu] at hlt ⊢
  · cases t <;> cases hlt
  · cases t with
    | negative => cases hlt
    | positive =>
      cases hxu : unpack x with
      | notANumber => rw [hxu] at hx; exact hx.elim
      | zero s => trivial
      | finite s m e hm =>
        rw [hxu] at hx
        cases s with
        | negative => exact hx.elim
        | positive => exact atLeastZero_roundWithAccuracy _ _ _
      | infinity s =>
        rw [hxu] at hx
        cases s with
        | negative => exact hx.elim
        | positive => trivial

end Draftboard.Exact
