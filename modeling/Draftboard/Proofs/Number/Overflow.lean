import Draftboard.Proofs.Number.Order

/-!
# Draftboard.Proofs.Number.Overflow

Which results are finite.

* What is rounded is finite below the overflow and infinite from there on
  (`isFinite_roundWithAccuracy_iff`). So a decimal is read as a finite number if and only if it lies
  below the overflow (`isFinite_toFloat_iff`), and always as a number (`unpack_toFloat_ne`).
* A sum is finite only if both parts of it are (`isFinite_of_add`).
-/

namespace Draftboard.Exact

open Float.Model (UnpackedFloat Format)
open Float.Model.UnpackedFloat

/-! ### Rounding -/

theorem isFinite_pack_of_eq_false {u : UnpackedFloat} (h : u.isFinite = false) :
    (pack u).isFinite = false := by
  cases u with
  | notANumber => rfl
  | infinity s => cases s <;> rfl
  | zero | finite => cases h

/-- An exponent that is too large makes an infinity. -/
theorem isFinite_pack_of_le {m : ℕ} {e : ℤ} (s : Sign) (hm : 0 < m) (he : 972 ≤ e) :
    (pack (.finite s m e hm)).isFinite = false := by
  have hbias : ((Format.binary64.exponentBias : ℕ) : ℤ) = 1023 := rfl
  have hwidth : ((Format.binary64.mantissaBitsWithoutImplicit : ℕ) : ℤ) = 52 := rfl
  have hbits : 2 ^ Format.binary64.exponentBits = 2048 := rfl
  have hpack : Float.Model.UnpackedFloat.pack Format.binary64 (.finite s m e hm) =
      Float.Model.UnpackedFloat.pack Format.binary64 (.infinity s) := by
    unfold Float.Model.UnpackedFloat.pack
    dsimp only
    rw [if_pos (by rw [hbits]; omega)]
  have hinfinity : pack (.finite s m e hm) = pack (.infinity s) := by
    unfold pack Float.Model.pack
    congr 2
    exact congrArg UInt64.ofBitVec hpack
  rw [hinfinity]
  exact isFinite_pack_of_eq_false rfl

namespace Scale

variable {q : ℝ} {t : ℤ} {n : ℕ}

/-- From the overflow on the exponent is out of range, at the latest after a carry. -/
theorem of_overflow_le (h : Scale q t) (hn : HalfEven (q / 2 ^ t) n) (hq : overflow ≤ q) (s : Sign) :
    ∃ m e hm, carried s n t = .finite s m e hm ∧ 972 ≤ e := by
  have hpow : (2 : ℝ) ^ (1023 : ℤ) ≤ overflow := by
    rw [overflow, show (1023 : ℤ) = 53 + 970 by norm_num, zpow_add₀ two_ne_zero]
    gcongr
    norm_num
  have hexponent : (2 : ℝ) ^ (1023 : ℤ) < 2 ^ (t + 53) := (hpow.trans hq).trans_lt h.lt
  rw [zpow_lt_zpow_iff_right₀ one_lt_two] at hexponent
  have hfull : 2 ^ 52 ≤ n := (h.full_mantissa hn).resolve_left (by omega)
  -- At the largest exponent in range the mantissa is rounded up, also in a tie.
  have hcarry : t = 971 → 2 ^ 53 ≤ n := by
    rintro rfl
    have hy : (2 : ℝ) ^ 53 - 1 / 2 ≤ q / 2 ^ (971 : ℤ) := by
      rw [le_div_iff₀ (by positivity)]
      calc ((2 : ℝ) ^ 53 - 1 / 2) * 2 ^ (971 : ℤ) = overflow := by
            rw [overflow, show (971 : ℤ) = 970 + 1 by norm_num, zpow_add₀ two_ne_zero]
            generalize (2 : ℝ) ^ (970 : ℤ) = z
            norm_num
            ring
        _ ≤ q := hq
    by_contra hlt
    have hle : (n : ℝ) ≤ 2 ^ 53 - 1 := by
      have hsucc : ((n + 1 : ℕ) : ℝ) ≤ ((2 ^ 53 : ℕ) : ℝ) := by exact_mod_cast Nat.lt_of_not_le hlt
      push_cast at hsucc
      linarith
    have hnear := abs_le.1 hn.near
    have hodd : n = 2 ^ 53 - 1 := by
      have heq : ((n + 1 : ℕ) : ℝ) = ((2 ^ 53 : ℕ) : ℝ) := by
        push_cast
        linarith
      have hnat : n + 1 = 2 ^ 53 := by exact_mod_cast heq
      omega
    have heven := hn.even (le_antisymm hn.near (by rw [abs_of_nonneg] <;> linarith))
    rw [hodd] at heven
    exact absurd heven (by decide)
  rcases carried_cases s (h.mantissa_le hn) t with ⟨rfl, -⟩ | ⟨hpos, hlt, hc⟩ | ⟨-, hc⟩
  · omega
  · exact ⟨n, t, hpos, hc, by omega⟩
  · exact ⟨2 ^ 52, t + 1, by decide, hc, by omega⟩

end Scale

/-- Rounding with what was cut off gives a finite number below the overflow only. -/
theorem isFinite_roundWithAccuracy_iff (s : Sign) {q : ℝ} {m : ℕ} {e : ℤ} {a : Accuracy}
    (h : Located (q / 2 ^ e) m a)
    (he : e ≤ Format.binary64.targetExponent (Float.Model.totalExponent m e)) :
    (pack (roundWithAccuracy Format.binary64 s m e a)).isFinite = true ↔ q < overflow := by
  refine ⟨fun hfinite => lt_of_not_ge fun hq => ?_, fun hq => (rounds_roundWithAccuracy s h he hq).isFinite⟩
  have hscale := h.scale he
  obtain ⟨em, hshift, hloc⟩ := h.shift he
  have hn : HalfEven _ em.roundedMantissa := hloc.halfEven
  obtain ⟨n, t, hpos, hc, ht⟩ := hscale.of_overflow_le hn hq s
  rw [roundWithAccuracy_eq hshift hscale.lower (hscale.mantissa_le hn), hc,
    isFinite_pack_of_le s hpos ht] at hfinite
  cases hfinite

/-! ### Decimals -/

/-- A decimal is read as a finite number if and only if it lies below the overflow. -/
theorem isFinite_toFloat_iff (d : Decimal) :
    d.toFloat.isFinite = true ↔ d.digits * (10 : ℝ) ^ d.exponent < overflow := by
  by_cases hdigits : d.digits = 0
  · rw [toFloat_of_digits_eq_zero hdigits, hdigits, Nat.cast_zero, zero_mul]
    exact iff_of_true (isFinite_pack_zero _) (lt_overflow (by positivity))
  · have hfloat : d.toFloat = pack (ofScientific Format.binary64 d.digits d.exponent) := rfl
    have hbits : (2 : ℤ) ^ Format.binary64.exponentBits = 2048 := rfl
    by_cases hupper : d.exponent ≤ 2048
    · by_cases hlower : -(2048 + (d.digits.log2 : ℤ)) ≤ d.exponent
      · obtain ⟨m, e, a, hd, hloc, he⟩ := exists_located_toFloat hdigits hlower hupper
        rw [hd]
        exact isFinite_roundWithAccuracy_iff .positive hloc he
      -- So small an exponent makes a zero of any digits.
      · have hzero : d.toFloat = pack (.zero .positive) := by
          rw [hfloat, ofScientific, hbits, dif_neg hdigits, if_neg (by omega), if_pos (by omega)]
        rw [hzero]
        refine iff_of_true (isFinite_pack_zero _) (lt_overflow ?_)
        have hlog : (d.digits : ℝ) ≤ 10 ^ (d.digits.log2 + 1) := by
          have htwo : d.digits ≤ 2 ^ (d.digits.log2 + 1) := Nat.lt_log2_self.le
          exact_mod_cast htwo.trans (Nat.pow_le_pow_left (by decide) _)
        calc (d.digits : ℝ) * 10 ^ d.exponent
            ≤ 10 ^ (d.digits.log2 + 1) * 10 ^ d.exponent := by gcongr
          _ = 10 ^ (((d.digits.log2 + 1 : ℕ) : ℤ) + d.exponent) := by
            rw [zpow_add₀ (by norm_num), zpow_natCast]
          _ ≤ 10 ^ (0 : ℤ) := zpow_le_zpow_right₀ (by norm_num) (by omega)
          _ ≤ 2 ^ 100 := by norm_num
    · have hinfinite : d.toFloat = pack (.infinity .positive) := by
        rw [hfloat, ofScientific, hbits, dif_neg hdigits, if_pos (by omega)]
      rw [hinfinite, isFinite_pack_of_eq_false rfl]
      refine iff_of_false Bool.false_ne_true (not_lt.2 ?_)
      have hone : (1 : ℝ) ≤ d.digits := by exact_mod_cast Nat.pos_of_ne_zero hdigits
      calc overflow ≤ 2 ^ (1024 : ℤ) := overflow_lt.le
        _ ≤ 10 ^ (1024 : ℤ) := zpow_le_zpow_left₀ (by norm_num) (by norm_num) (by norm_num)
        _ ≤ 10 ^ d.exponent := zpow_le_zpow_right₀ (by norm_num) (by omega)
        _ ≤ d.digits * 10 ^ d.exponent := le_mul_of_one_le_left (by positivity) hone

/-- A decimal is always read as a number. -/
theorem unpack_toFloat_ne (d : Decimal) : unpack d.toFloat ≠ .notANumber := by
  intro h
  have hzero := zero_le_iff.1 (zero_le_toFloat d)
  rw [h] at hzero
  exact hzero

/-! ### Sums -/

/-- An infinity leaves an infinity or no number. -/
theorem isFinite_parts_of_add {u v : UnpackedFloat}
    (h : (UnpackedFloat.add Format.binary64 u v).isFinite = true) :
    u.isFinite = true ∧ v.isFinite = true := by
  cases u with
  | notANumber => cases h
  | infinity s =>
    cases v with
    | notANumber => cases h
    | infinity t => cases s <;> cases t <;> cases h
    | zero | finite => cases h
  | zero | finite =>
    cases v with
    | notANumber | infinity => cases h
    | zero | finite => exact ⟨rfl, rfl⟩

/-- A sum is finite only if both parts are. -/
theorem isFinite_of_add {x y : Float} (h : (x + y).isFinite = true) :
    x.isFinite = true ∧ y.isFinite = true := by
  have hadd : x + y = pack (UnpackedFloat.add Format.binary64 (unpack x) (unpack y)) := rfl
  rw [isFinite_of_unpack rfl, isFinite_of_unpack (x := y) rfl]
  refine isFinite_parts_of_add (Bool.eq_true_of_not_eq_false fun hparts => ?_)
  rw [hadd, isFinite_pack_of_eq_false hparts] at h
  cases h

end Draftboard.Exact
