import Draftboard.Geometry.Point
import Draftboard.Proofs.Number.Order

/-!
# Draftboard.Proofs.Number.Equality

Equality of numbers and of points, as it is computed.

* Equality tells zeros of different signs not apart, and what is no number differs from itself; two
  numbers are equal otherwise if they are the same (`Exact.beq_iff`). So it is symmetric and transitive
  (`Exact.instPartialEquivBEq`), and everything that is equal to something is equal to itself.
* A point of numbers is equal to itself, and snapping it to the grid makes no less of it
  (`Point.beq_self_snapToGrid`), not even if a coordinate overflows on the way.
-/

namespace Draftboard

namespace Exact

open Float.Model (UnpackedFloat Format)
open Float.Model.UnpackedFloat

/-! ### Numbers -/

/-- What compares as equal is two zeros, of any sign, or twice the same. -/
theorem eq_of_compare {u v : UnpackedFloat} (h : u.compare v = some .eq) :
    (∃ s t, u = .zero s ∧ v = .zero t) ∨ u = v ∧ u ≠ .notANumber := by
  cases u with
  | notANumber => cases h
  | zero s =>
    cases v with
    | zero t => exact .inl ⟨s, t, rfl, rfl⟩
    | notANumber => cases h
    | finite t | infinity t => cases t <;> cases h
  | infinity s =>
    cases v with
    | notANumber => cases s <;> cases h
    | zero t | finite t => cases s <;> cases h
    | infinity t =>
      have hsigns : compare s t = .eq := Option.some.inj h
      refine .inr ⟨?_, nofun⟩
      cases s <;> cases t <;> first | rfl | exact absurd hsigns (by decide)
  | finite s m e hm =>
    cases v with
    | notANumber => cases s <;> cases h
    | zero t => cases s <;> cases h
    | infinity t => cases s <;> cases t <;> cases h
    | finite t n f hn =>
      have hparts : (compare e f).then (compare m n) = .eq → e = f ∧ m = n := by
        rw [Ordering.then_eq_eq, Int.compare_eq_eq, Nat.compare_eq_eq]
        exact id
      refine .inr ⟨?_, nofun⟩
      cases s with
      | positive =>
        cases t with
        | positive =>
          obtain ⟨rfl, rfl⟩ := hparts (Option.some.inj h)
          rfl
        | negative => cases h
      | negative =>
        cases t with
        | positive => cases h
        | negative =>
          obtain ⟨rfl, rfl⟩ := hparts (Ordering.swap_eq_eq.1 (Option.some.inj h))
          rfl

theorem compare_self {u : UnpackedFloat} (h : u ≠ .notANumber) : u.compare u = some .eq := by
  cases u with
  | notANumber => exact absurd rfl h
  | zero s => rfl
  | infinity s => cases s <;> rfl
  | finite s m e hm =>
    have hparts : (compare e e).then (compare m m) = .eq :=
      Ordering.then_eq_eq.2 ⟨Int.compare_eq_eq.2 rfl, Nat.compare_eq_eq.2 rfl⟩
    cases s with
    | positive => exact congrArg some hparts
    | negative => exact congrArg some (Ordering.swap_eq_eq.2 hparts)

/-- Two numbers are equal if both are zeros, of any sign, or if they are the same. -/
theorem beq_iff {x y : Float} : (x == y) = true ↔
    (∃ s t, unpack x = .zero s ∧ unpack y = .zero t) ∨ x = y ∧ unpack x ≠ .notANumber := by
  have hcompare : (x == y) = ((unpack x).compare (unpack y) == some .eq) := rfl
  rw [hcompare, beq_iff_eq]
  constructor
  · intro h
    rcases eq_of_compare h with hzeros | ⟨hsame, hx⟩
    · exact .inl hzeros
    · exact .inr ⟨by rw [← pack_unpack x, hsame, pack_unpack], hx⟩
  · rintro (⟨s, t, hx, hy⟩ | ⟨rfl, hx⟩)
    · rw [hx, hy]
      rfl
    · exact compare_self hx

theorem beq_self_iff {x : Float} : (x == x) = true ↔ unpack x ≠ .notANumber := by
  rw [beq_iff]
  refine ⟨?_, fun h => .inr ⟨rfl, h⟩⟩
  rintro (⟨s, -, h, -⟩ | ⟨-, h⟩)
  · rw [h]
    nofun
  · exact h

instance instPartialEquivBEq : PartialEquivBEq Float where
  symm h := by
    rcases beq_iff.1 h with ⟨s, t, hx, hy⟩ | ⟨rfl, hx⟩
    · exact beq_iff.2 (.inl ⟨t, s, hy, hx⟩)
    · exact h
  trans h h' := by
    rcases beq_iff.1 h with ⟨s, t, hx, hy⟩ | ⟨rfl, -⟩
    · rcases beq_iff.1 h' with ⟨t', u, -, hz⟩ | ⟨rfl, -⟩
      · exact beq_iff.2 (.inl ⟨s, u, hx, hz⟩)
      · exact h
    · exact h'

/-! ### What stays a number -/

theorem unpack_ne_of_isFinite {x : Float} (hx : x.isFinite = true) : unpack x ≠ .notANumber := by
  intro h
  rw [isFinite_of_unpack h] at hx
  cases hx

theorem roundWithAccuracy_ne_notANumber (s : Sign) (m : Nat) (e : Int) (a : Accuracy) :
    roundWithAccuracy Format.binary64 s m e a ≠ .notANumber :=
  of_dite (· ≠ .notANumber) (fun _ => nofun) fun _ => nofun

/-- A finite number other than zero, as a factor or a divisor, leaves a number. -/
theorem mul_ne_and_div_ne {x y : Float} (hx : unpack x ≠ .notANumber)
    (hy : ∃ s m e hm, unpack y = .finite s m e hm) :
    unpack (x * y) ≠ .notANumber ∧ unpack (x / y) ≠ .notANumber := by
  obtain ⟨t, n, f, hn, hy⟩ := hy
  have hmul : x * y = pack (UnpackedFloat.mul Format.binary64 (unpack x) (unpack y)) := rfl
  have hdiv : x / y = pack (UnpackedFloat.div Format.binary64 (unpack x) (unpack y)) := rfl
  rw [hmul, hdiv, hy]
  refine ⟨unpack_pack_ne_notANumber ?_, unpack_pack_ne_notANumber ?_⟩
  · cases hu : unpack x with
    | notANumber => exact absurd hu hx
    | finite => exact roundWithAccuracy_ne_notANumber _ _ _ _
    | _ => nofun
  · cases hu : unpack x with
    | notANumber => exact absurd hu hx
    | finite => exact roundWithAccuracy_ne_notANumber _ _ _ _
    | _ => nofun

theorem roundHalfAway_ne {x : Float} (hx : unpack x ≠ .notANumber) :
    unpack (roundHalfAway x) ≠ .notANumber := by
  unfold roundHalfAway
  split
  · split
    · exact hx
    · dsimp only
      unfold nearest
      split
      · exact unpack_pack_ne_notANumber nofun
      · exact unpack_pack_ne_notANumber (roundWithAccuracy_ne_notANumber _ _ _ _)
  · exact hx

end Exact

/-! ### Points -/

namespace Point

instance : PartialEquivBEq (Point Float) where
  symm h := by
    obtain ⟨hx, hy⟩ := Bool.and_eq_true_iff.1 h
    exact Bool.and_eq_true_iff.2 ⟨PartialEquivBEq.symm hx, PartialEquivBEq.symm hy⟩
  trans h h' := by
    obtain ⟨hx, hy⟩ := Bool.and_eq_true_iff.1 h
    obtain ⟨hx', hy'⟩ := Bool.and_eq_true_iff.1 h'
    exact Bool.and_eq_true_iff.2 ⟨PartialEquivBEq.trans hx hx', PartialEquivBEq.trans hy hy'⟩

/-- What equals something equals itself. -/
theorem beq_self_of_beq {p q : Point Float} (h : (p == q) = true) : (p == p) = true :=
  PartialEquivBEq.trans h (PartialEquivBEq.symm h)

theorem beq_self_snapToGrid {p : Point Float} (h : (p == p) = true) :
    (p.snapToGrid == p.snapToGrid) = true := by
  have hten : ∃ s m e hm, Exact.unpack (Scalar.ofNat 10) = .finite s m e hm :=
    ⟨_, _, _, _, rfl⟩
  have hsnap : ∀ {x : Float}, (x == x) = true →
      (Scalar.roundHalfAway (x * Scalar.ofNat 10) / Scalar.ofNat 10 ==
        Scalar.roundHalfAway (x * Scalar.ofNat 10) / Scalar.ofNat 10) = true := fun hx =>
    Exact.beq_self_iff.2 (Exact.mul_ne_and_div_ne (Exact.roundHalfAway_ne
      (Exact.mul_ne_and_div_ne (Exact.beq_self_iff.1 hx) hten).1) hten).2
  obtain ⟨hx, hy⟩ := Bool.and_eq_true_iff.1 h
  exact Bool.and_eq_true_iff.2 ⟨hsnap hx, hsnap hy⟩

end Point

end Draftboard
