import Mathlib.Analysis.Real.Sqrt
import Draftboard.Proofs.Number.Nearest

/-!
# Draftboard.Proofs.Number.Arithmetic

What operations on 64-bit numbers round.

* Sum, difference, product and root of finite numbers are numbers nearest to the exact results
  (`rounds_add`, `rounds_sub`, `rounds_mul`, `rounds_sqrt`), and a decimal is read as the number
  nearest to it (`rounds_toFloat`). A result may not overflow.
* The digits of a number at a given number of places are its value on that grid, rounded half to
  even (`halfEven_atPlaces`).
* Comparisons of finite numbers are comparisons of what they stand for (`real_le_of_le`).
-/

namespace Draftboard

open Float.Model (UnpackedFloat Format)
open Float.Model.UnpackedFloat

namespace Exact

/-! ### Quotients of whole numbers -/

/-- The remainder of a division says where the quotient lies. -/
theorem located_div (num : ℕ) {den : ℕ} (h : 0 < den) :
    Located ((num : ℝ) / den) (num / den) (accuracyOfFraction (num % den) den) := by
  have hden : (0 : ℝ) < den := by exact_mod_cast h
  have hdiv : (num : ℝ) = den * (num / den : ℕ) + (num % den : ℕ) := by
    exact_mod_cast (Nat.div_add_mod num den).symm
  have hrem : num % den < den := Nat.mod_lt num h
  have hquot : (num : ℝ) / den = (num / den : ℕ) + (num % den : ℕ) / den := by
    conv_lhs => rw [hdiv]
    field_simp
  rw [hquot]
  generalize num / den = q
  generalize num % den = r at hrem
  unfold accuracyOfFraction
  split
  · rename_i hzero
    simp [Located, hzero]
  · rename_i hne
    have hpos : (0 : ℝ) < (r : ℝ) / den := div_pos (by exact_mod_cast Nat.pos_of_ne_zero hne) hden
    have hone : (r : ℝ) / den < 1 := (div_lt_one hden).2 (by exact_mod_cast hrem)
    cases hc : compare (2 * r) den with
    | lt =>
      have hlt : (r : ℝ) / den < 1 / 2 := by
        rw [div_lt_div_iff₀ hden two_pos, one_mul, mul_comm]
        exact_mod_cast Nat.compare_eq_lt.1 hc
      constructor <;> linarith
    | eq =>
      have heq : (r : ℝ) / den = 1 / 2 := by
        rw [div_eq_div_iff hden.ne' two_ne_zero, one_mul, mul_comm]
        exact_mod_cast Nat.compare_eq_eq.1 hc
      show _ = _
      rw [heq]
    | gt =>
      have hgt : 1 / 2 < (r : ℝ) / den := by
        rw [div_lt_div_iff₀ two_pos hden, one_mul, mul_comm (r : ℝ)]
        exact_mod_cast Nat.compare_eq_gt.1 hc
      constructor <;> linarith

theorem roundHalfEven_eq (num den : ℕ) :
    roundHalfEven num den = (accuracyOfFraction (num % den) den).roundToNearestEven (num / den) := by
  unfold roundHalfEven accuracyOfFraction
  by_cases hzero : num % den = 0
  · rw [hzero, if_pos rfl, Nat.mul_zero]
    cases den with
    | zero => rw [Nat.mod_zero] at hzero; subst hzero; rfl
    | succ den => rfl
  · rw [if_neg hzero]
    cases compare (2 * (num % den)) den <;> rfl

/-- Decimals are rounded as mantissas are. -/
theorem halfEven_roundHalfEven (num : ℕ) {den : ℕ} (h : 0 < den) :
    HalfEven ((num : ℝ) / den) (roundHalfEven num den) := by
  rw [roundHalfEven_eq]
  exact (located_div num h).halfEven

/-- The digits of a number at a given number of places. -/
theorem halfEven_atPlaces (places : ℕ) (x : Float) :
    HalfEven (|real x| * 10 ^ places) (Decimal.atPlaces places x).digits := by
  have hmagnitude : |real x| = ((magnitude (unpack x)).1 : ℝ) * 2 ^ (magnitude (unpack x)).2 := by
    unfold real
    cases unpack x with
    | finite s m e hm =>
      rw [realOf_finite, abs_signed, abs_of_nonneg (by positivity)]
      rfl
    | _ =>
      show |(0 : ℝ)| = ((0 : ℕ) : ℝ) * 2 ^ (0 : ℤ)
      rw [abs_zero, Nat.cast_zero, zero_mul]
  show HalfEven _ (Decimal.onGrid (-places) (magnitude (unpack x)).1 (magnitude (unpack x)).2).digits
  rw [hmagnitude]
  generalize (magnitude (unpack x)).1 = m
  generalize (magnitude (unpack x)).2 = e
  have hden : 0 < 1 <<< (-e).toNat * Decimal.tenTo (-(places : ℤ)).toNat := by
    rw [Nat.one_shiftLeft]
    exact Nat.mul_pos (by positivity) (Nat.pow_pos (by decide))
  have hquot : (m : ℝ) * (2 : ℝ) ^ e * (10 : ℝ) ^ places =
      ((m <<< e.toNat * Decimal.tenTo (- -(places : ℤ)).toNat : ℕ) : ℝ) /
        ((1 <<< (-e).toNat * Decimal.tenTo (-(places : ℤ)).toNat : ℕ) : ℝ) := by
    have hplaces : (-(places : ℤ)).toNat = 0 := by omega
    have hten : ∀ n, Decimal.tenTo n = 10 ^ n := fun _ => rfl
    rw [neg_neg, Int.toNat_natCast, hplaces, hten, hten, pow_zero, Nat.mul_one, Nat.one_shiftLeft,
      Nat.shiftLeft_eq]
    push_cast
    rcases le_total 0 e with he | he
    · obtain ⟨k, rfl⟩ := Int.eq_ofNat_of_zero_le he
      simp
    · obtain ⟨k, hk⟩ := Int.eq_ofNat_of_zero_le (neg_nonneg.2 he)
      obtain rfl : e = -(k : ℤ) := by omega
      simp
      ring
  rw [hquot]
  exact halfEven_roundHalfEven _ hden

/-! ### Signs -/

theorem unpack_neg (x : Float) : unpack (-x) = (unpack x).neg := by
  have hneg : -x = pack (unpack x).neg := rfl
  rw [hneg]
  cases hx : unpack x with
  | zero s => exact unpack_pack_zero (-s)
  | finite s m e hm => exact unpack_pack (-s) (canonical_of_unpack hx)
  | infinity s => cases s <;> rfl
  | notANumber => rfl

theorem isFinite_neg (x : Float) : (-x).isFinite = x.isFinite := by
  rw [isFinite_of_unpack (unpack_neg x), isFinite_of_unpack rfl]
  cases unpack x <;> rfl

theorem signed_neg (s : Sign) (q : ℝ) : signed (-s) q = -signed s q := by
  cases s
  · exact (neg_neg q).symm
  · rfl

theorem real_neg (x : Float) : real (-x) = -real x := by
  rw [real, real, unpack_neg]
  cases unpack x with
  | finite s m e hm => exact signed_neg s _
  | _ => exact neg_zero.symm

theorem isNegative_neg {x : Float} (hx : x.isFinite = true) : isNegative (-x) = !isNegative x := by
  unfold isNegative
  rw [unpack_neg]
  rcases cases_of_isFinite hx with ⟨s, hxu⟩ | ⟨s, m, e, hm, hxu⟩ <;> rw [hxu] <;> cases s <;> rfl

/-- The magnitude of a finite number is one. -/
theorem exists_real_eq_abs {x : Float} (hx : x.isFinite = true) :
    ∃ y : Float, y.isFinite = true ∧ real y = |real x| := by
  rcases abs_choice (real x) with h | h
  · exact ⟨x, hx, h.symm⟩
  · exact ⟨-x, (isFinite_neg x).trans hx, (real_neg x).trans h.symm⟩

theorem signed_mul (s t : Sign) (q r : ℝ) : signed (s * t) (q * r) = signed s q * signed t r := by
  cases s <;> cases t
  · exact (neg_mul_neg q r).symm
  · exact (neg_mul q r).symm
  · exact (mul_neg q r).symm
  · rfl

theorem real_pack_zero (s : Sign) : real (pack (.zero s)) = 0 := by
  rw [real, unpack_pack_zero, realOf_zero]

theorem isFinite_pack_zero (s : Sign) : (pack (.zero s)).isFinite = true :=
  isFinite_of_unpack (unpack_pack_zero s)

/-! ### Sums -/

theorem decreaseExponent_real (m : ℕ) {e t : ℤ} (h : t ≤ e) :
    ((decreaseExponent m e t).1 : ℝ) * 2 ^ t = m * 2 ^ e := by
  obtain ⟨k, rfl⟩ := Int.le.dest h
  have hk : (t + k - t).toNat = k := by omega
  rw [decreaseExponent, hk, Nat.shiftLeft_eq, zpow_add₀ two_ne_zero, zpow_natCast]
  push_cast
  ring

/-- Before a number is rounded, zeros are appended to its mantissa until it has enough bits. -/
theorem exists_round_eq (spec : Format) (s : Sign) {m : ℕ} (hm : m ≠ 0) (e : ℤ) :
    ∃ n f, round spec s m e = roundWithAccuracy spec s n f .exact ∧ n ≠ 0 ∧
      f ≤ spec.targetExponent (Float.Model.totalExponent n f) ∧ (n : ℝ) * 2 ^ f = m * 2 ^ e := by
  generalize ht : spec.targetExponent (Float.Model.totalExponent m e) = t
  have htotal : Float.Model.totalExponent (m * 2 ^ (e - t).toNat) (e - (e - t).toNat) =
      Float.Model.totalExponent m e := by
    rw [Float.Model.totalExponent, Float.Model.totalExponent, log2_mul_two_pow hm]
    omega
  refine ⟨m * 2 ^ (e - t).toNat, e - (e - t).toNat, ?_, Nat.mul_ne_zero hm (by positivity), ?_, ?_⟩
  · rw [Float.Model.UnpackedFloat.round, ht, decreaseExponent, Nat.shiftLeft_eq]
  · rw [htotal, ht]
    omega
  · rw [zpow_sub₀ two_ne_zero, zpow_natCast]
    push_cast
    field_simp

/-- A number with any exponent is rounded once. -/
theorem rounds_round (s : Sign) {m : ℕ} (hm : m ≠ 0) (e : ℤ) (hq : m * (2 : ℝ) ^ e < overflow) :
    Rounds (signed s (m * 2 ^ e)) (pack (round Format.binary64 s m e)) := by
  obtain ⟨n, f, hround, -, hf, hreal⟩ := exists_round_eq Format.binary64 s hm e
  rw [hround]
  refine rounds_roundWithAccuracy s ?_ hf hq
  show _ / _ = _
  rw [← hreal, mul_div_cancel_right₀ _ (by positivity)]

theorem rounds_normalize (n : ℤ) (e : ℤ) (s : Sign) (hq : |(n : ℝ) * 2 ^ e| < overflow) :
    Rounds (n * 2 ^ e) (pack (normalize Format.binary64 n e s)) := by
  have hpos : (0 : ℝ) < 2 ^ e := by positivity
  rw [abs_mul, abs_of_pos hpos] at hq
  unfold UnpackedFloat.normalize
  cases hc : compare n 0 with
  | eq =>
    obtain rfl := Int.compare_eq_eq.1 hc
    exact .of_real_eq (isFinite_pack_zero s) (by rw [real_pack_zero]; simp)
  | lt =>
    obtain ⟨m, rfl⟩ : ∃ m : ℕ, n = -m := ⟨(-n).toNat, by have := Int.compare_eq_lt.1 hc; omega⟩
    have hm : m ≠ 0 := by have := Int.compare_eq_lt.1 hc; omega
    have h := rounds_round .negative hm e (by simpa using hq)
    simpa [signed] using h
  | gt =>
    obtain ⟨m, rfl⟩ : ∃ m : ℕ, n = m := ⟨n.toNat, by have := Int.compare_eq_gt.1 hc; omega⟩
    have hm : m ≠ 0 := by have := Int.compare_eq_gt.1 hc; omega
    have h := rounds_round .positive hm e (by simpa using hq)
    simpa [signed] using h

/-- A sum is rounded once. -/
theorem rounds_add {x y : Float} (hx : x.isFinite = true) (hy : y.isFinite = true)
    (hq : |real x + real y| < overflow) : Rounds (real x + real y) (x + y) := by
  have hadd : x + y = pack (UnpackedFloat.add Format.binary64 (unpack x) (unpack y)) := rfl
  have hreal : ∀ {z u}, unpack z = u → real z = realOf u := fun h => congrArg realOf h
  rcases cases_of_isFinite hx with ⟨s, hxu⟩ | ⟨s, m, e, hm, hxu⟩ <;>
    rcases cases_of_isFinite hy with ⟨t, hyu⟩ | ⟨t, n, f, hn, hyu⟩
  · have hzero : ∃ u, x + y = pack (.zero u) := by
      rw [hadd, hxu, hyu]
      show ∃ u, pack (if s == t then .zero s else .zero .positive) = _
      split
      · exact ⟨s, rfl⟩
      · exact ⟨.positive, rfl⟩
    obtain ⟨u, hu⟩ := hzero
    rw [hu, hreal hxu, hreal hyu, realOf_zero, realOf_zero, add_zero]
    exact .of_real_eq (isFinite_pack_zero u) (real_pack_zero u)
  -- A zero adds nothing.
  · have hsum : x + y = y := by
      rw [hadd, hxu, ← pack_unpack y, hyu, unpack_pack t (canonical_of_unpack hyu)]
      rfl
    rw [hsum, hreal hxu, realOf_zero, zero_add]
    exact .of_isFinite hy
  · have hsum : x + y = x := by
      rw [hadd, hyu, ← pack_unpack x, hxu, unpack_pack s (canonical_of_unpack hxu)]
      rfl
    rw [hsum, hreal hyu, realOf_zero, add_zero]
    exact .of_isFinite hx
  · have hsum : real x + real y = ((s.apply (decreaseExponent m e (min e f)).1 +
        t.apply (decreaseExponent n f (min e f)).1 : ℤ) : ℝ) * 2 ^ min e f := by
      have hscale : ∀ (u : Sign) (q r : ℝ), signed u q * r = signed u (q * r) := fun u q r =>
        (signed_mul u .positive q r).symm.trans (by rw [mul_positive])
      rw [Int.cast_add, cast_apply, cast_apply, add_mul, hscale, hscale,
        decreaseExponent_real m (min_le_left e f), decreaseExponent_real n (min_le_right e f),
        hreal hxu, hreal hyu, realOf_finite, realOf_finite]
    rw [hsum] at hq ⊢
    rw [hadd, hxu, hyu]
    exact rounds_normalize _ _ .positive hq

/-- A sum that is a number is not rounded. -/
theorem real_add_eq {x y z : Float} (hx : x.isFinite = true) (hy : y.isFinite = true)
    (hz : z.isFinite = true) (h : real x + real y = real z) :
    (x + y).isFinite = true ∧ real (x + y) = real z := by
  have hrounds := rounds_add hx hy (by rw [h]; linarith [abs_real_add_one_lt hz])
  rw [h] at hrounds
  exact ⟨hrounds.isFinite, hrounds.real_eq hz⟩

/-- To subtract is to add the opposite number. -/
theorem sub_eq (x y : Float) : x - y = x + -y := by
  have hsub : x - y = pack (UnpackedFloat.sub Format.binary64 (unpack x) (unpack y)) := rfl
  have hadd : x + -y = pack (UnpackedFloat.add Format.binary64 (unpack x) (unpack (-y))) := rfl
  rw [hsub, hadd, unpack_neg]
  congr 1
  cases unpack x <;> cases unpack y <;> try rfl
  rename_i s m e hm t n f hn
  have happly : ∀ k : ℤ, (-t).apply k = -t.apply k := by
    intro k
    cases t
    · exact (neg_neg k).symm
    · rfl
  show normalize _ (_ - t.apply _) _ _ = normalize _ (_ + (-t).apply _) _ _
  rw [happly, Int.sub_eq_add_neg]

/-- A difference is rounded once. -/
theorem rounds_sub {x y : Float} (hx : x.isFinite = true) (hy : y.isFinite = true)
    (hq : |real x - real y| < overflow) : Rounds (real x - real y) (x - y) := by
  rw [SubNegMonoid.sub_eq_add_neg, ← real_neg] at hq ⊢
  rw [sub_eq]
  exact rounds_add hx ((isFinite_neg y).trans hy) hq

/-! ### Products -/

theorem le_targetExponent {m : ℕ} {e : ℤ} (h : 2 ^ 52 ≤ m ∨ e ≤ -1074) :
    e ≤ Format.binary64.targetExponent (Float.Model.totalExponent m e) := by
  rw [targetExponent_eq]
  rcases h with h | h
  · have hlog : 52 ≤ m.log2 := (Nat.le_log2 (by omega)).2 h
    omega
  · omega

/-- A product is rounded once. -/
theorem rounds_mul {x y : Float} (hx : x.isFinite = true) (hy : y.isFinite = true)
    (hq : |real x * real y| < overflow) : Rounds (real x * real y) (x * y) := by
  have hmul : x * y = pack (UnpackedFloat.mul Format.binary64 (unpack x) (unpack y)) := rfl
  have hreal : ∀ {z u}, unpack z = u → real z = realOf u := fun h => congrArg realOf h
  rcases cases_of_isFinite hx with ⟨s, hxu⟩ | ⟨s, m, e, hm, hxu⟩ <;>
    rcases cases_of_isFinite hy with ⟨t, hyu⟩ | ⟨t, n, f, hn, hyu⟩
  · rw [hmul, hreal hxu, hxu, hyu, realOf_zero, zero_mul]
    exact .of_real_eq (isFinite_pack_zero _) (real_pack_zero _)
  · rw [hmul, hreal hxu, hxu, hyu, realOf_zero, zero_mul]
    exact .of_real_eq (isFinite_pack_zero _) (real_pack_zero _)
  · rw [hmul, hreal hyu, hxu, hyu, realOf_zero, mul_zero]
    exact .of_real_eq (isFinite_pack_zero _) (real_pack_zero _)
  · have hproduct : real x * real y = signed (s * t) ((m * 2 ^ e) * (n * 2 ^ f)) := by
      rw [hreal hxu, hreal hyu, realOf_finite, realOf_finite, signed_mul]
    rw [hproduct, abs_signed, abs_of_nonneg (by positivity)] at hq
    rw [hmul, hxu, hyu, hproduct]
    refine rounds_roundWithAccuracy (s * t) ?_ (le_targetExponent ?_) hq
    · show _ / _ = _
      rw [zpow_add₀ two_ne_zero]
      push_cast
      field_simp
    -- Only two short mantissas have a short product, and then the exponent is small.
    · have hx' := canonical_of_unpack hxu
      have hy' := canonical_of_unpack hyu
      rcases hx'.full with hfull | rfl
      · exact .inl (hfull.trans (Nat.le_mul_of_pos_right m hn))
      · rcases hy'.full with hfull | rfl
        · exact .inl (hfull.trans (Nat.le_mul_of_pos_left n hm))
        · exact .inr (by norm_num)

/-- A product that is a number is not rounded. -/
theorem real_mul_eq {x y z : Float} (hx : x.isFinite = true) (hy : y.isFinite = true)
    (hz : z.isFinite = true) (h : real x * real y = real z) :
    (x * y).isFinite = true ∧ real (x * y) = real z := by
  have hrounds := rounds_mul hx hy (by rw [h]; linarith [abs_real_add_one_lt hz])
  rw [h] at hrounds
  exact ⟨hrounds.isFinite, hrounds.real_eq hz⟩

/-! ### Roots -/

/-- The whole root and what is left over say where the root lies. -/
theorem located_sqrt (m : ℕ) :
    Located (Real.sqrt m) m.sqrt (if m - m.sqrt * m.sqrt = 0 then .exact
      else .inexact (if m - m.sqrt * m.sqrt ≤ m.sqrt then .lt else .gt)) := by
  have hbelow := m.lt_succ_sqrt
  obtain ⟨k, hk⟩ := Nat.exists_eq_add_of_le m.sqrt_le
  generalize m.sqrt = r at hk hbelow
  subst hk
  have hcast : ((r * r + k : ℕ) : ℝ) = r ^ 2 + k := by push_cast; ring
  rw [Nat.add_sub_cancel_left, hcast]
  split
  · rename_i hzero
    subst hzero
    show _ = _
    rw [Nat.cast_zero, add_zero, Real.sqrt_sq (Nat.cast_nonneg r)]
  · rename_i hne
    have hpos : (0 : ℝ) < k := by exact_mod_cast Nat.pos_of_ne_zero hne
    split
    · rename_i hle
      have hle' : (k : ℝ) ≤ r := by exact_mod_cast hle
      refine ⟨Real.lt_sqrt_of_sq_lt (by linarith), ?_⟩
      rw [Real.sqrt_lt' (by positivity)]
      linarith
    · rename_i hgt
      have hgt' : (r : ℝ) + 1 ≤ k := by exact_mod_cast Nat.lt_of_not_le hgt
      have hbelow' : (r : ℝ) ^ 2 + k < (r + 1) ^ 2 := by
        rw [← hcast, sq ((r : ℝ) + 1)]
        exact_mod_cast hbelow
      refine ⟨Real.lt_sqrt_of_sq_lt (by linarith), ?_⟩
      rwa [Real.sqrt_lt' (by positivity)]

theorem sqrtCore_spec {m : ℕ} (hm : 0 < m) (e : ℤ) :
    let r := sqrtCore Format.binary64 m e
    Located (Real.sqrt (m * 2 ^ e) / 2 ^ r.2.1) r.1 r.2.2 ∧
      r.2.1 ≤ Format.binary64.targetExponent (Float.Model.totalExponent r.1 r.2.1) := by
  intro r
  generalize ht : min (e.ediv 2)
    (Format.binary64.targetExponent ((Float.Model.totalExponent m e + 1).ediv 2)) = t
  obtain ⟨k, hk⟩ : ∃ k : ℕ, (e - 2 * t).toNat = k ∧ e = k + 2 * t := by
    have hle : t ≤ e.ediv 2 := ht ▸ min_le_left _ _
    exact ⟨_, rfl, by have : e.ediv 2 = e / 2 := rfl; omega⟩
  have hr : r = ((m <<< k).sqrt, t, if m <<< k - (m <<< k).sqrt * (m <<< k).sqrt = 0 then .exact
      else .inexact (if m <<< k - (m <<< k).sqrt * (m <<< k).sqrt ≤ (m <<< k).sqrt then .lt
        else .gt)) := by
    show sqrtCore Format.binary64 m e = _
    unfold sqrtCore
    rw [ht]
    dsimp only
    rw [hk.1]
  rw [hr]
  dsimp only
  rw [Nat.shiftLeft_eq]
  constructor
  · have hroot : Real.sqrt (m * 2 ^ e) / 2 ^ t = Real.sqrt ((m * 2 ^ k : ℕ) : ℝ) := by
      have hsplit : (m : ℝ) * 2 ^ e = (m * 2 ^ k : ℕ) * (2 ^ t) ^ 2 := by
        rw [hk.2, zpow_add₀ two_ne_zero, zpow_natCast, mul_comm 2 t, zpow_mul, zpow_ofNat,
          ← mul_assoc, Nat.cast_mul, Nat.cast_pow, Nat.cast_ofNat]
      rw [hsplit, Real.sqrt_mul (Nat.cast_nonneg _), Real.sqrt_sq (by positivity),
        mul_div_cancel_right₀ _ (by positivity)]
    rw [hroot]
    exact located_sqrt _
  · rw [targetExponent_eq]
    have hlog : (m * 2 ^ k).log2 < 2 * ((m * 2 ^ k).sqrt.log2 + 1) := by
      rw [Nat.log2_lt (by positivity), two_mul, pow_add]
      have hsucc : (m * 2 ^ k).sqrt + 1 ≤ 2 ^ ((m * 2 ^ k).sqrt.log2 + 1) := Nat.lt_log2_self
      exact (Nat.lt_succ_sqrt _).trans_le (Nat.mul_le_mul hsucc hsucc)
    rw [log2_mul_two_pow hm.ne'] at hlog
    have hle : t ≤ Format.binary64.targetExponent ((Float.Model.totalExponent m e + 1).ediv 2) :=
      ht ▸ min_le_right _ _
    change t ≤ max ((((m.log2 : ℤ) + 1 + e + 1) / 2) - 53) (-1074) at hle
    omega

/-- A root is rounded once. -/
theorem rounds_sqrt {x : Float} (hx : x.isFinite = true) (h0 : 0 ≤ real x)
    (hq : Real.sqrt (real x) < overflow) : Rounds (Real.sqrt (real x)) x.sqrt := by
  have hsqrt : x.sqrt = pack (UnpackedFloat.sqrt Format.binary64 (unpack x)) := rfl
  rcases cases_of_isFinite hx with ⟨s, hxu⟩ | ⟨s, m, e, hm, hxu⟩
  · rw [hsqrt, real, hxu, realOf_zero, Real.sqrt_zero]
    exact .of_real_eq (isFinite_pack_zero s) (real_pack_zero s)
  · rw [real, hxu, realOf_finite] at h0 hq ⊢
    have hpos : (0 : ℝ) < m * 2 ^ e := by positivity
    cases s with
    | negative => exact absurd h0 (not_le.2 (neg_neg_of_pos hpos))
    | positive =>
      obtain ⟨hloc, he⟩ := sqrtCore_spec hm e
      rw [hsqrt, hxu]
      exact rounds_roundWithAccuracy .positive hloc he hq

/-! ### Decimals -/

theorem divCore_spec {m n : ℕ} (hm : 0 < m) (hn : 0 < n) :
    let r := divCore Format.binary64 m 0 n 0
    Located ((m : ℝ) / n / 2 ^ r.2.1) r.1 r.2.2 ∧
      r.2.1 ≤ Format.binary64.targetExponent (Float.Model.totalExponent r.1 r.2.1) := by
  intro r
  generalize ht : min 0 (Format.binary64.targetExponent
    (Float.Model.totalExponent m 0 - Float.Model.totalExponent n 0)) = t
  obtain ⟨k, hk, rfl⟩ : ∃ k : ℕ, (0 - t).toNat = k ∧ t = -(k : ℤ) := by
    have hle : t ≤ 0 := ht ▸ min_le_left _ _
    exact ⟨_, rfl, by omega⟩
  have hr : r = (m <<< k / n, -(k : ℤ), accuracyOfFraction (m <<< k % n) n) := by
    show divCore Format.binary64 m 0 n 0 = _
    unfold divCore
    rw [sub_zero, ht]
    dsimp only
    rw [hk]
  rw [hr]
  dsimp only
  rw [Nat.shiftLeft_eq]
  constructor
  · have hquot : (m : ℝ) / n / 2 ^ (-(k : ℤ)) = ((m * 2 ^ k : ℕ) : ℝ) / n := by
      rw [zpow_neg, zpow_natCast, div_inv_eq_mul, div_mul_eq_mul_div]
      push_cast
      rfl
    rw [hquot]
    exact located_div _ hn
  · rw [targetExponent_eq]
    -- The quotient has at least as many bits as the two lengths leave.
    have hlog : m.log2 + k < (m * 2 ^ k / n).log2 + n.log2 + 2 := by
      rw [← log2_mul_two_pow hm.ne' k, Nat.log2_lt (by positivity)]
      calc m * 2 ^ k < (m * 2 ^ k / n + 1) * n := by
            rw [mul_comm _ n]
            exact Nat.lt_mul_div_succ _ hn
        _ ≤ 2 ^ ((m * 2 ^ k / n).log2 + 1) * 2 ^ (n.log2 + 1) :=
          Nat.mul_le_mul Nat.lt_log2_self Nat.lt_log2_self.le
        _ = 2 ^ ((m * 2 ^ k / n).log2 + n.log2 + 2) := by rw [← pow_add]; ring_nf
    have hle : -(k : ℤ) ≤ Format.binary64.targetExponent
        (Float.Model.totalExponent m 0 - Float.Model.totalExponent n 0) := ht ▸ min_le_right _ _
    change -(k : ℤ) ≤ max (((m.log2 : ℤ) + 1 + 0) - ((n.log2 : ℤ) + 1 + 0) - 53) (-1074) at hle
    omega

theorem toFloat_of_digits_eq_zero {d : Decimal} (h : d.digits = 0) :
    d.toFloat = pack (.zero .positive) := by
  have hfloat : d.toFloat = pack (ofScientific Format.binary64 d.digits d.exponent) := rfl
  rw [hfloat, ofScientific, dif_pos h]

/-- A decimal other than zero, whose exponent is not out of all range, is located and rounded once. -/
theorem exists_located_toFloat {d : Decimal} (hdigits : d.digits ≠ 0)
    (hlower : -(2048 + (d.digits.log2 : ℤ)) ≤ d.exponent) (hupper : d.exponent ≤ 2048) :
    ∃ m e a, d.toFloat = pack (roundWithAccuracy Format.binary64 .positive m e a) ∧
      Located (d.digits * (10 : ℝ) ^ d.exponent / 2 ^ e) m a ∧
      e ≤ Format.binary64.targetExponent (Float.Model.totalExponent m e) := by
  obtain ⟨m, e⟩ := d
  dsimp only at hdigits hlower hupper ⊢
  have hfloat : (Decimal.mk m e).toFloat = pack (ofScientific Format.binary64 m e) := rfl
  have hbits : (2 : ℤ) ^ Format.binary64.exponentBits = 2048 := rfl
  rw [hfloat]
  unfold ofScientific
  rw [hbits, dif_neg hdigits, if_neg (by omega), if_neg (by omega)]
  rcases le_or_gt 0 e with he | he
  -- The product of whole numbers is exact, with zeros appended to make it long enough.
  · rw [if_pos he]
    obtain ⟨k, rfl⟩ := Int.eq_ofNat_of_zero_le he
    refine ⟨_, _, _, rfl, ?_, le_targetExponent (.inl ?_)⟩
    · show _ / _ = _
      rw [Nat.shiftLeft_eq, Int.toNat_natCast, add_zero, zpow_neg, div_inv_eq_mul, zpow_natCast,
        zpow_natCast]
      push_cast
      ring
    · rw [Nat.shiftLeft_eq, mul_right_comm]
      have hpos : 0 < m * 10 ^ (k : ℤ).toNat := by positivity
      exact (by decide : 2 ^ 52 ≤ 2 ^ Format.binary64.mantissaBits).trans
        (Nat.le_mul_of_pos_left _ hpos)
  · rw [if_neg (by omega)]
    have hquot : (m : ℝ) * 10 ^ e = m / (10 ^ (-e).toNat : ℕ) := by
      have hneg : e = -((-e).toNat : ℤ) := by omega
      conv_lhs => rw [hneg, zpow_neg, zpow_natCast, ← div_eq_mul_inv]
      push_cast
      rfl
    rw [hquot]
    have hten : 0 < 10 ^ (-e).toNat := by positivity
    obtain ⟨hloc, hexp⟩ := divCore_spec (Nat.pos_of_ne_zero hdigits) hten
    exact ⟨_, _, _, rfl, hloc, hexp⟩

/-- A decimal is read as a number nearest to it. -/
theorem rounds_toFloat {d : Decimal} (hlower : -2048 ≤ d.exponent) (hupper : d.exponent ≤ 2048)
    (hq : d.digits * (10 : ℝ) ^ d.exponent < overflow) :
    Rounds (d.digits * (10 : ℝ) ^ d.exponent) d.toFloat := by
  by_cases hdigits : d.digits = 0
  · rw [toFloat_of_digits_eq_zero hdigits]
    exact .of_real_eq (isFinite_pack_zero _) (by rw [real_pack_zero, hdigits]; simp)
  · obtain ⟨m, e, a, hd, hloc, he⟩ := exists_located_toFloat hdigits (by omega) hupper
    rw [hd]
    exact rounds_roundWithAccuracy .positive hloc he hq

/-! ### Order -/

/-- Of two canonical numbers the one with the larger exponent is larger. -/
theorem Canonical.lt_of_exponent_lt {m n : ℕ} {e f : ℤ} (hm : Canonical m e) (hn : Canonical n f)
    (h : e < f) : (m : ℝ) * 2 ^ e < n * 2 ^ f := by
  have hfull : 2 ^ 52 ≤ n := hn.full.resolve_right (by have := hm.lower; omega)
  have hm' : (m : ℝ) < 2 ^ 53 := by exact_mod_cast hm.lt
  have hn' : (2 : ℝ) ^ 52 ≤ n := by exact_mod_cast hfull
  calc (m : ℝ) * 2 ^ e < 2 ^ 53 * 2 ^ e := by gcongr
    _ = 2 ^ 52 * 2 ^ (e + 1) := by rw [zpow_add_one₀ two_ne_zero]; ring
    _ ≤ 2 ^ 52 * 2 ^ f := by
      gcongr
      · norm_num
      · omega
    _ ≤ n * 2 ^ f := by gcongr

/-- Canonical numbers are ordered by exponent first and mantissa second. -/
theorem Canonical.compares {m n : ℕ} {e f : ℤ} (hm : Canonical m e) (hn : Canonical n f) :
    ((compare e f).then (compare m n)).Compares ((m : ℝ) * 2 ^ e) (n * 2 ^ f) := by
  cases he : compare e f with
  | lt => exact hm.lt_of_exponent_lt hn (Int.compare_eq_lt.1 he)
  | gt => exact hn.lt_of_exponent_lt hm (Int.compare_eq_gt.1 he)
  | eq =>
    obtain rfl := Int.compare_eq_eq.1 he
    have hpos : (0 : ℝ) < 2 ^ e := by positivity
    show (compare m n).Compares _ _
    cases hc : compare m n with
    | lt =>
      have hlt : (m : ℝ) < n := by exact_mod_cast Nat.compare_eq_lt.1 hc
      exact mul_lt_mul_of_pos_right hlt hpos
    | gt =>
      have hlt : (n : ℝ) < m := by exact_mod_cast Nat.compare_eq_gt.1 hc
      exact mul_lt_mul_of_pos_right hlt hpos
    | eq =>
      obtain rfl := Nat.compare_eq_eq.1 hc
      exact rfl

/-- Finite numbers are compared by what they stand for. -/
theorem real_le_of_le {x y : Float} (hx : x.isFinite = true) (hy : y.isFinite = true)
    (h : x ≤ y) : real x ≤ real y := by
  have hle : (unpack x).le (unpack y) = true := of_decide_eq_true h
  have hpos : ∀ {m : ℕ} {e : ℤ}, 0 < m → (0 : ℝ) < m * 2 ^ e := fun hm => by positivity
  unfold real
  rcases cases_of_isFinite hx with ⟨s, hxu⟩ | ⟨s, m, e, hm, hxu⟩ <;>
    rcases cases_of_isFinite hy with ⟨t, hyu⟩ | ⟨t, n, f, hn, hyu⟩ <;>
    rw [hxu, hyu] at hle ⊢
  · exact le_rfl
  · cases t with
    | negative => exact absurd hle Bool.false_ne_true
    | positive => exact (hpos hn).le
  · cases s with
    | negative => exact (neg_neg_of_pos (hpos hm)).le
    | positive => exact absurd hle Bool.false_ne_true
  · have hcompares := (canonical_of_unpack hxu).compares (canonical_of_unpack hyu)
    cases s with
    | negative =>
      cases t with
      | negative =>
        refine neg_le_neg ?_
        change ((compare e f).then (compare m n)).swap.isLE = true at hle
        cases hc : (compare e f).then (compare m n) <;> rw [hc] at hle hcompares
        · cases hle
        · exact hcompares.ge
        · exact hcompares.le
      | positive => exact ((neg_neg_of_pos (hpos hm)).trans (hpos hn)).le
    | positive =>
      cases t with
      | negative => exact absurd hle Bool.false_ne_true
      | positive =>
        change ((compare e f).then (compare m n)).isLE = true at hle
        cases hc : (compare e f).then (compare m n) <;> rw [hc] at hle hcompares
        · exact hcompares.le
        · exact hcompares.le
        · cases hle

end Exact

end Draftboard
