import Mathlib.Data.Set.Finite.Lemmas
import Draftboard.Proofs.Geometry.Winding

/-!
# Draftboard.Proofs.Geometry.Interior

The inside of a ring whose sides do not meet.

* A ring is `Simple` if two of its sides have only end points in common. A point `Sees` a side from a
  point in the middle of it, if no other side is in between.
* All points that see a side from the left are gone round equally often, and those that see it from the
  right once less (`Simple.exists_value`). At a corner some point sees both sides that meet there
  (`Simple.exists_sees_both`), so the two numbers are the same for all sides (`Simple.exists_values`).
* At a corner that lies lower than all the others in some direction, a side is seen from outside. Hence
  the numbers are one and zero if the ring turns left there (`Simple.leftward_of_turn_pos`).
-/

namespace Draftboard.Plane

open List

variable {a b c d m n p q x z : Point ℚ} {l : List (Point ℚ)} {e f : Point ℚ × Point ℚ} {k : ℤ}

/-! ### Simple rings -/

/-- Two sides have at most end points in common. -/
structure Simple (l : List (Point ℚ)) : Prop where
  size : 3 ≤ l.length
  nodup : l.Nodup
  meets : ∀ e ∈ Ring.sides l, ∀ f ∈ Ring.sides l, e ≠ f → ∀ z ∈ segment e.1 e.2,
    z ∈ segment f.1 f.2 → (z = e.1 ∨ z = e.2) ∧ (z = f.1 ∨ z = f.2)

namespace Simple

theorem rotate {m : List (Point ℚ)} (h : Simple l) (hm : l ~r m) : Simple m where
  size := hm.perm.length_eq ▸ h.size
  nodup := hm.nodup_iff.1 h.nodup
  meets e he f hf := h.meets e ((Ring.mem_sides_iff hm).2 he) f ((Ring.mem_sides_iff hm).2 hf)

/-- Every corner stands between two others. -/
theorem exists_neighbours (h : Simple l) (hx : x ∈ l) :
    ∃ p n, (p, x) ∈ Ring.sides l ∧ (x, n) ∈ Ring.sides l := by
  obtain ⟨n, m, p, hl⟩ := Ring.exists_corner_of_mem hx h.size
  exact ⟨p, n, (Ring.mem_sides_iff hl).2 (Ring.mem_sides_corner.2 (.inl rfl)),
    (Ring.mem_sides_iff hl).2 (Ring.mem_sides_corner.2 (.inr (.inl rfl)))⟩

/-- Turned so that a corner comes first, the ring ends with the corner before. -/
theorem exists_around (h : Simple l) (hp : (p, x) ∈ Ring.sides l) (hn : (x, n) ∈ Ring.sides l) :
    ∃ k, l ~r x :: n :: (k ++ [p]) := by
  obtain ⟨n', k, p', hl⟩ := Ring.exists_corner_of_mem (Ring.fst_mem_of_mem_sides hn) h.size
  have hp' : (p', x) ∈ Ring.sides l := (Ring.mem_sides_iff hl).2 (Ring.mem_sides_corner.2 (.inl rfl))
  have hn' : (x, n') ∈ Ring.sides l :=
    (Ring.mem_sides_iff hl).2 (Ring.mem_sides_corner.2 (.inr (.inl rfl)))
  obtain rfl : p = p' := congrArg Prod.fst (Ring.eq_of_snd_eq h.nodup hp hp' rfl)
  obtain rfl : n = n' := congrArg Prod.snd (Ring.eq_of_fst_eq h.nodup hn hn' rfl)
  exact ⟨k, hl⟩

/-- Three corners in a row are different points. -/
theorem neighbours_ne (h : Simple l) (hp : (p, x) ∈ Ring.sides l) (hn : (x, n) ∈ Ring.sides l) :
    p ≠ x ∧ x ≠ n ∧ p ≠ n := by
  obtain ⟨k, hl⟩ := h.exists_around hp hn
  have hnodup := hl.nodup_iff.1 h.nodup
  simp only [nodup_cons, mem_cons, mem_append, not_mem_nil, or_false, not_or] at hnodup
  exact ⟨Ne.symm hnodup.1.2.2, hnodup.1.1, Ne.symm hnodup.2.1.2⟩

theorem fst_ne_snd (h : Simple l) (he : e ∈ Ring.sides l) : e.1 ≠ e.2 := by
  obtain ⟨p, n, hp, hn⟩ := h.exists_neighbours (Ring.fst_mem_of_mem_sides he)
  have heq := Ring.eq_of_fst_eq h.nodup he hn rfl
  rw [heq]
  exact (h.neighbours_ne hp hn).2.1

/-- A corner on a side is one of its ends. -/
theorem eq_end_of_mem (h : Simple l) (hx : x ∈ l) (he : e ∈ Ring.sides l)
    (hmem : x ∈ segment e.1 e.2) : x = e.1 ∨ x = e.2 := by
  obtain ⟨-, n, -, hn⟩ := h.exists_neighbours hx
  by_cases heq : e = (x, n)
  · exact .inl (by rw [heq])
  · exact (h.meets e he _ hn heq x hmem (left_mem_segment x n)).1

/-- The two sides at a corner go on, or turn there, but do not turn back. -/
theorem not_back (h : Simple l) (hp : (p, x) ∈ Ring.sides l) (hn : (x, n) ∈ Ring.sides l)
    (hturn : turn p x n = 0) : ∃ t, 1 < t ∧ n = lerp p x t := by
  obtain ⟨hpx, hxn, hpn⟩ := h.neighbours_ne hp hn
  have hne : (p, x) ≠ (x, n) := fun heq => hpx (congrArg Prod.fst heq)
  obtain ⟨t, rfl⟩ := exists_eq_lerp hpx hturn
  refine ⟨t, ?_, rfl⟩
  by_contra ht
  rw [not_lt] at ht
  rcases le_or_gt 0 t with ht0 | ht0
  · -- the next corner would lie on the side before
    rcases (h.meets _ hp _ hn hne _ ⟨t, ht0, ht, rfl⟩ (right_mem_segment _ _)).1 with heq | heq
    · exact hpn heq.symm
    · exact hxn heq.symm
  · -- the corner before would lie on the next side
    have hmem : p ∈ segment x (lerp p x t) := by
      refine ⟨1 / (1 - t), by apply div_nonneg <;> linarith, ?_, ?_⟩
      · rw [div_le_one (by linarith)]
        linarith
      · have h1 : (1 - t) ≠ 0 := by linarith
        ext <;> simp only [lerp] <;> field_simp <;> ring
    rcases (h.meets _ hp _ hn hne _ (left_mem_segment _ _) hmem).2 with heq | heq
    · exact hpx heq
    · exact hpn heq

end Simple

/-- A segment that is apart from some of the sides can be moved a little. -/
theorem Simple.nudge (h : Simple l) (Q : Point ℚ × Point ℚ → Prop)
    (hapart : ∀ f ∈ Ring.sides l, Q f → Apart a b f.1 f.2) (p q : Point ℚ) :
    ∃ t₀, 0 < t₀ ∧ ∀ t, 0 ≤ t → t ≤ t₀ →
      ∀ f ∈ Ring.sides l, Q f → Apart (lerp a p t) (lerp b q t) f.1 f.2 := by
  refine exists_while (fun t f => Q f → Apart (lerp a p t) (lerp b q t) f.1 f.2) _ fun f hf => ?_
  by_cases hQ : Q f
  · obtain ⟨t₀, ht₀, hnudge⟩ := (hapart f hf hQ).nudge (h.fst_ne_snd hf) p q
    exact ⟨t₀, ht₀, fun t ht0 ht _ => hnudge t ht0 ht⟩
  · exact ⟨1, zero_lt_one, fun _ _ _ hQ' => absurd hQ' hQ⟩

/-! ### Seeing a side -/

/-- The point `q` looks at the point `m` in the middle of the side `e`, with no other side in
between. -/
structure Sees (l : List (Point ℚ)) (e : Point ℚ × Point ℚ) (m q : Point ℚ) : Prop where
  mem : e ∈ Ring.sides l
  mid : ∃ s, 0 < s ∧ s < 1 ∧ m = lerp e.1 e.2 s
  clear : ∀ f ∈ Ring.sides l, f ≠ e → Apart m q f.1 f.2

theorem ne_of_mid (hab : a ≠ b) {s : ℚ} (hs0 : 0 < s) (hs1 : s < 1) :
    lerp a b s ≠ a ∧ lerp a b s ≠ b := by
  constructor
  · intro heq
    exact hs0.ne' (lerp_injective hab (by rw [heq, lerp_zero]))
  · intro heq
    exact hs1.ne (lerp_injective hab (by rw [heq, lerp_one]))

namespace Sees

theorem turn_mid (h : Sees l e m q) : turn e.1 e.2 m = 0 := by
  obtain ⟨s, -, -, rfl⟩ := h.mid
  simp [turn_lerp]

theorem turn_lerp_mid (h : Sees l e m q) (z : Point ℚ) (t : ℚ) :
    turn e.1 e.2 (lerp m z t) = t * turn e.1 e.2 z := by
  rw [turn_lerp, h.turn_mid]
  ring

/-- The points in between see the side too. -/
theorem shorten (h : Sees l e m q) {t : ℚ} (ht0 : 0 ≤ t) (ht1 : t ≤ 1) : Sees l e m (lerp m q t) where
  mem := h.mem
  mid := h.mid
  clear f hf hne z hz := h.clear f hf hne z
    (mem_segment_of_lerp le_rfl zero_le_one ht0 ht1 (by rwa [lerp_zero]))

end Sees

namespace Simple

/-- The middle of a side is apart from all other sides. -/
theorem apart_of_mid (h : Simple l) (he : e ∈ Ring.sides l) (hf : f ∈ Ring.sides l) (hne : f ≠ e)
    {s t : ℚ} (hs0 : 0 < s) (hs1 : s < 1) (ht0 : 0 < t) (ht1 : t < 1) :
    Apart (lerp e.1 e.2 s) (lerp e.1 e.2 t) f.1 f.2 := by
  rintro _ ⟨r, hr0, hr1, rfl⟩ hmem
  have hr : lerp (lerp e.1 e.2 s) (lerp e.1 e.2 t) r = lerp e.1 e.2 (s + r * (t - s)) := by
    ext <;> simp only [lerp] <;> ring
  have h0 : 0 < s + r * (t - s) := lt_between hr0 hr1 hs0 ht0
  have h1 : s + r * (t - s) < 1 := between_lt hr0 hr1 hs1 ht1
  obtain ⟨hne1, hne2⟩ := ne_of_mid (h.fst_ne_snd he) h0 h1
  rw [hr] at hmem
  rcases (h.meets e he f hf (Ne.symm hne) _ ⟨_, h0.le, h1.le, rfl⟩ hmem).1 with heq | heq
  · exact hne1 heq
  · exact hne2 heq

/-- Points near the middle of a side see it, in any direction. -/
theorem exists_sees (h : Simple l) (he : e ∈ Ring.sides l) {s : ℚ} (hs0 : 0 < s) (hs1 : s < 1)
    (z : Point ℚ) :
    ∃ t₀, 0 < t₀ ∧ t₀ < 1 ∧ ∀ t, 0 ≤ t → t ≤ t₀ →
      Sees l e (lerp e.1 e.2 s) (lerp (lerp e.1 e.2 s) z t) := by
  obtain ⟨t₀, ht₀, hclear⟩ := h.nudge (· ≠ e)
    (fun f hf hne => h.apart_of_mid he hf hne hs0 hs1 hs0 hs1) (lerp e.1 e.2 s) z
  refine ⟨min t₀ (1 / 2), lt_min ht₀ (by norm_num), (min_le_right _ _).trans_lt (by norm_num),
    fun t ht0 ht => ⟨he, ⟨s, hs0, hs1, rfl⟩, fun f hf hne => ?_⟩⟩
  simpa using hclear t ht0 (ht.trans (min_le_left _ _)) f hf hne

/-- On one side of a side, moving along lines that meet no other side keeps the winding number. -/
theorem winding_eq_of_clear (h : Simple l) (he : e ∈ Ring.sides l)
    (hclear : ∀ f ∈ Ring.sides l, f ≠ e → Apart p q f.1 f.2)
    (hside : 0 < turn e.1 e.2 p ∧ 0 < turn e.1 e.2 q ∨ turn e.1 e.2 p < 0 ∧ turn e.1 e.2 q < 0) :
    winding l p = winding l q := by
  refine winding_eq (fun f hf => h.fst_ne_snd hf) fun f hf => ?_
  by_cases hfe : f = e
  · subst hfe
    rcases hside with ⟨hp, hq⟩ | ⟨hp, hq⟩
    · exact apart_of_turn_pos hp hq
    · exact apart_of_turn_neg hp hq
  · exact hclear f hf hfe

/-- Points that see a side from the same side of it are gone round equally often. -/
theorem winding_eq_of_sees (h : Simple l) {m' q' : Point ℚ} (hq : Sees l e m q) (hq' : Sees l e m' q')
    (hside : 0 < turn e.1 e.2 q ∧ 0 < turn e.1 e.2 q' ∨ turn e.1 e.2 q < 0 ∧ turn e.1 e.2 q' < 0) :
    winding l q = winding l q' := by
  obtain ⟨s, hs0, hs1, hm⟩ := hq.mid
  obtain ⟨s', hs0', hs1', hm'⟩ := hq'.mid
  obtain ⟨t₀, ht₀, hnudge⟩ := h.nudge (· ≠ e) (a := m) (b := m')
    (fun f hf hne => hm ▸ hm' ▸ h.apart_of_mid hq.mem hf hne hs0 hs1 hs0' hs1') q q'
  have ht : 0 < min t₀ 1 := lt_min ht₀ zero_lt_one
  have hle : min t₀ 1 ≤ 1 := min_le_right _ _
  -- each point comes down to the side, and there they are near each other
  have hdown : ∀ {u v : Point ℚ}, Sees l e u v →
      (0 < turn e.1 e.2 v ∨ turn e.1 e.2 v < 0) → winding l v = winding l (lerp u v (min t₀ 1)) := by
    intro u v huv hturn
    refine h.winding_eq_of_clear huv.mem (fun f hf hne z hz => huv.clear f hf hne z ?_) ?_
    · exact mem_segment_of_lerp zero_le_one le_rfl ht.le hle (by rwa [lerp_one])
    · rw [huv.turn_lerp_mid]
      exact hturn.imp (fun hv => ⟨hv, mul_pos ht hv⟩) fun hv => ⟨hv, by nlinarith⟩
  rw [hdown hq (hside.imp And.left And.left), hdown hq' (hside.imp And.right And.right)]
  refine h.winding_eq_of_clear hq.mem (hnudge _ ht.le (min_le_left _ _)) ?_
  rw [hq.turn_lerp_mid, hq'.turn_lerp_mid]
  exact hside.imp (fun hv => ⟨mul_pos ht hv.1, mul_pos ht hv.2⟩)
    fun hv => ⟨by nlinarith [hv.1], by nlinarith [hv.2]⟩

/-- A point that sees a side from the left is gone round once more than one that sees it from the
right. -/
theorem winding_of_sees_right (h : Simple l) {m' q' : Point ℚ} (hq : Sees l e m q)
    (hleft : 0 < turn e.1 e.2 q) (hq' : Sees l e m' q') (hright : turn e.1 e.2 q' < 0) :
    winding l q = winding l q' + 1 := by
  obtain ⟨s, hs0, hs1, rfl⟩ := hq.mid
  obtain ⟨t₀, ht₀, hnudge⟩ := h.nudge (· ≠ e)
    (fun f hf hne => h.apart_of_mid hq.mem hf hne hs0 hs1 hs0 hs1)
    (lerp (lerp e.1 e.2 s) q (-1)) q
  have ht : 0 < min t₀ (1 / 2) := lt_min ht₀ (by norm_num)
  have ht1 : min t₀ (1 / 2) < 1 := (min_le_right _ _).trans_lt (by norm_num)
  -- the segment through the middle of the side, from right to left
  have hacross : ∀ f ∈ Ring.sides l, f ≠ e →
      Apart (lerp (lerp e.1 e.2 s) q (-min t₀ (1 / 2))) (lerp (lerp e.1 e.2 s) q (min t₀ (1 / 2)))
        f.1 f.2 := by
    intro f hf hne
    simpa [lerp_lerp_left] using hnudge _ ht.le (min_le_left _ _) f hf hne
  have hopposite : Sees l e (lerp e.1 e.2 s) (lerp (lerp e.1 e.2 s) q (-min t₀ (1 / 2))) := by
    refine ⟨hq.mem, hq.mid, fun f hf hne z hz => hacross f hf hne z ?_⟩
    obtain ⟨r, hr0, hr1, rfl⟩ := hz
    refine ⟨(1 - r) / 2, by linarith, by linarith, ?_⟩
    ext <;> simp only [lerp] <;> ring
  have hnear := hq.shorten ht.le ht1.le
  rw [h.winding_eq_of_sees hq hnear (.inl ⟨hleft, by rw [hq.turn_lerp_mid]; exact mul_pos ht hleft⟩),
    winding_cross h.nodup hq.mem hleft hs0 hs1 ht ht1 (fun f hf => h.fst_ne_snd hf) hacross,
    h.winding_eq_of_sees hopposite hq'
      (.inr ⟨by rw [hq.turn_lerp_mid]; nlinarith, hright⟩)]

end Simple

/-! ### The numbers of a side -/

/-- Points that see the side from the right are gone round `k` times, and those that see it from the
left once more. -/
def Values (l : List (Point ℚ)) (e : Point ℚ × Point ℚ) (k : ℤ) : Prop :=
  ∀ m q, Sees l e m q → (0 < turn e.1 e.2 q → winding l q = k + 1) ∧
    (turn e.1 e.2 q < 0 → winding l q = k)

/-- A point to the left of the line from `a` to `b`. -/
theorem exists_turn_pos (hab : a ≠ b) : ∃ z, 0 < turn a b z := by
  refine ⟨⟨a.x - (b.y - a.y), a.y + (b.x - a.x)⟩, ?_⟩
  have hsq : turn a b ⟨a.x - (b.y - a.y), a.y + (b.x - a.x)⟩ =
      (b.x - a.x) ^ 2 + (b.y - a.y) ^ 2 := by
    simp only [turn]
    ring
  rw [hsq]
  exact sq_pos_of_ne hab

namespace Simple

theorem exists_value (h : Simple l) (he : e ∈ Ring.sides l) : ∃ k, Values l e k := by
  obtain ⟨z, hz⟩ := exists_turn_pos (h.fst_ne_snd he)
  obtain ⟨t, ht0, -, hnear⟩ := h.exists_sees he (show (0 : ℚ) < 1 / 2 by norm_num) (by norm_num) z
  have hsees := hnear t ht0.le le_rfl
  have hleft : 0 < turn e.1 e.2 (lerp (lerp e.1 e.2 (1 / 2)) z t) := by
    have hzero : turn e.1 e.2 (lerp e.1 e.2 (1 / 2)) = 0 := hsees.turn_mid
    rw [turn_lerp, hzero]
    linarith [mul_pos ht0 hz]
  refine ⟨winding l (lerp (lerp e.1 e.2 (1 / 2)) z t) - 1, fun m q hq => ⟨fun hturn => ?_, fun hturn => ?_⟩⟩
  · rw [h.winding_eq_of_sees hq hsees (.inl ⟨hturn, hleft⟩)]
    ring
  · rw [h.winding_of_sees_right hsees hleft hq hturn]
    ring

/-! ### Round the corner -/

/-- At a corner some direction leads to the inner side of the bend, or to one side if there is no
bend. -/
theorem exists_inner_side (h : Simple l) (hp : (p, x) ∈ Ring.sides l) (hn : (x, n) ∈ Ring.sides l) :
    ∃ ε c, (ε = 1 ∨ ε = -1) ∧ 0 ≤ ε * turn p x n ∧ 0 < ε * turn p x c ∧ 0 < ε * turn x n c := by
  have hmid : turn p x (lerp p n (1 / 2)) = turn p x n / 2 ∧
      turn x n (lerp p n (1 / 2)) = turn p x n / 2 := by
    constructor
    · simp only [turn, lerp]
      ring
    · simp only [turn, lerp]
      ring
  rcases lt_trichotomy (turn p x n) 0 with hlt | hzero | hgt
  · exact ⟨-1, lerp p n (1 / 2), .inr rfl, by linarith, by linarith [hmid.1], by linarith [hmid.2]⟩
  · obtain ⟨c, hc⟩ := exists_turn_pos (h.neighbours_ne hp hn).1
    obtain ⟨t, ht, rfl⟩ := h.not_back hp hn hzero
    have hnext : turn x (lerp p x t) c = (t - 1) * turn p x c := by
      simp only [turn, lerp]
      ring
    refine ⟨1, c, .inl rfl, by linarith, by linarith, ?_⟩
    rw [hnext]
    nlinarith
  · exact ⟨1, lerp p n (1 / 2), .inl rfl, by linarith, by linarith [hmid.1], by linarith [hmid.2]⟩

/-- Near a corner a point sees both sides that meet there, from the same side. -/
theorem exists_sees_both (h : Simple l) (hp : (p, x) ∈ Ring.sides l) (hn : (x, n) ∈ Ring.sides l) :
    ∃ m m' q, Sees l (p, x) m q ∧ Sees l (x, n) m' q ∧
      (0 < turn p x q ∧ 0 < turn x n q ∨ turn p x q < 0 ∧ turn x n q < 0) := by
  obtain ⟨ε, c, hε, hturn, hpc, hnc⟩ := h.exists_inner_side hp hn
  obtain ⟨hpx, hxn, -⟩ := h.neighbours_ne hp hn
  have hne : (p, x) ≠ (x, n) := fun heq => hpx (congrArg Prod.fst heq)
  -- the corner lies on no other side
  have haway : ∀ f ∈ Ring.sides l, f ≠ (p, x) ∧ f ≠ (x, n) → Apart x x f.1 f.2 := by
    rintro f hf ⟨hfp, hfn⟩ z hz hmem
    obtain ⟨r, -, -, rfl⟩ := hz
    rw [lerp_self] at hmem
    rcases h.eq_end_of_mem (Ring.fst_mem_of_mem_sides hn) hf hmem with heq | heq
    · exact hfn (Ring.eq_of_fst_eq h.nodup hf hn heq.symm)
    · exact hfp (Ring.eq_of_snd_eq h.nodup hf hp heq.symm)
  obtain ⟨t₁, ht₁, h₁⟩ := h.nudge _ haway p c
  obtain ⟨t₂, ht₂, h₂⟩ := h.nudge _ haway n c
  obtain ⟨t, ht0, ht1, htt₁, htt₂⟩ : ∃ t : ℚ, 0 < t ∧ t < 1 ∧ t ≤ t₁ ∧ t ≤ t₂ :=
    ⟨min (1 / 2) (min t₁ t₂), lt_min (by norm_num) (lt_min ht₁ ht₂),
      (min_le_left _ _).trans_lt (by norm_num), (min_le_right _ _).trans (min_le_left _ _),
      (min_le_right _ _).trans (min_le_right _ _)⟩
  have hpm : lerp x p t = lerp p x (1 - t) := (lerp_symm x p t).symm
  have hqp : turn p x (lerp x c t) = t * turn p x c := by simp [turn_lerp]
  have hqn : turn x n (lerp x c t) = t * turn x n c := by simp [turn_lerp]
  have hfar : lerp x p t ∉ segment x n := by
    rw [hpm]
    exact h.apart_of_mid hp hn (Ne.symm hne) (sub_pos.2 ht1) (by linarith) (sub_pos.2 ht1) (by linarith)
      _ (left_mem_segment _ _)
  have hfar' : lerp x n t ∉ segment p x :=
    h.apart_of_mid hn hp hne ht0 ht1 ht0 ht1 _ (left_mem_segment _ _)
  refine ⟨lerp x p t, lerp x n t, lerp x c t, ⟨hp, ⟨1 - t, by linarith, by linarith, hpm⟩, ?_⟩,
    ⟨hn, ⟨t, ht0, ht1, rfl⟩, ?_⟩, ?_⟩
  · intro f hf hfp
    by_cases hfn : f = (x, n)
    · subst hfn
      refine apart_of_turn ε ?_ ?_ hfar
      · have hback : turn x n (lerp x p t) = t * turn p x n := by
          rw [turn_lerp, turn_self_left, turn_rotate p x n]
          ring
        rw [hback, mul_left_comm]
        exact mul_nonneg ht0.le hturn
      · rw [hqn, mul_left_comm]
        exact mul_pos ht0 hnc
    · exact h₁ t ht0.le htt₁ f hf ⟨hfp, hfn⟩
  · intro f hf hfn
    by_cases hfp : f = (p, x)
    · subst hfp
      refine apart_of_turn ε ?_ ?_ hfar'
      · have hahead : turn p x (lerp x n t) = t * turn p x n := by simp [turn_lerp]
        rw [hahead, mul_left_comm]
        exact mul_nonneg ht0.le hturn
      · rw [hqp, mul_left_comm]
        exact mul_pos ht0 hpc
    · exact h₂ t ht0.le htt₂ f hf ⟨hfp, hfn⟩
  · rw [hqp, hqn]
    rcases hε with rfl | rfl
    · exact .inl ⟨mul_pos ht0 (by linarith), mul_pos ht0 (by linarith)⟩
    · exact .inr ⟨by nlinarith, by nlinarith⟩

/-- The numbers of a side are those of the next one. -/
theorem values_next (h : Simple l) (hp : (p, x) ∈ Ring.sides l) (hn : (x, n) ∈ Ring.sides l)
    (hk : Values l (p, x) k) : Values l (x, n) k := by
  obtain ⟨k', hk'⟩ := h.exists_value hn
  obtain ⟨m, m', q, hq, hq', hside⟩ := h.exists_sees_both hp hn
  have heq : k' = k := by
    rcases hside with ⟨hleft, hleft'⟩ | ⟨hright, hright'⟩
    · have hwinding := (hk m q hq).1 hleft
      have hwinding' := (hk' m' q hq').1 hleft'
      omega
    · have hwinding := (hk m q hq).2 hright
      have hwinding' := (hk' m' q hq').2 hright'
      omega
  exact heq ▸ hk'

/-- All sides have the same numbers. -/
theorem exists_values (h : Simple l) : ∃ k, ∀ e ∈ Ring.sides l, Values l e k := by
  obtain ⟨c, n, m, p, hl⟩ := Ring.exists_corner h.size
  have hwalk : ∀ (v w : Point ℚ) (r : List (Point ℚ)) (k : ℤ),
      (∀ e ∈ Ring.walk (v :: w :: r), e ∈ Ring.sides l) → Values l (v, w) k →
        ∀ e ∈ Ring.walk (v :: w :: r), Values l e k := by
    intro v w r k hsides hk
    induction r generalizing v w with
    | nil =>
      intro e he
      rw [Ring.walk_cons_cons, Ring.walk_singleton, mem_singleton] at he
      exact he ▸ hk
    | cons u r ih =>
      intro e he
      rw [Ring.walk_cons_cons, mem_cons] at he
      rcases he with rfl | he
      · exact hk
      · exact ih w u (fun f hf => hsides f (mem_cons_of_mem _ hf))
          (h.values_next (hsides _ (by simp)) (hsides _ (by simp)) hk) e he
  have hsides : Ring.sides l = Ring.walk (c :: n :: (m ++ [p] ++ [c])) := by
    rw [hl, Ring.sides_cons]
    simp
  obtain ⟨k, hk⟩ := h.exists_value (show (c, n) ∈ Ring.sides l by simp [hsides])
  exact ⟨k, fun e he => hwalk c n _ k (fun f hf => hsides ▸ hf) hk e (hsides ▸ he)⟩

end Simple

/-! ### Outside -/

/-- A corner that lies lower than all the others in some direction. -/
def Extreme (l : List (Point ℚ)) (v : Point ℚ) : Prop :=
  v ∈ l ∧ ∃ g, ∀ y ∈ l, y ≠ v → level g v < level g y

/-- The corner that is farthest from the origin is extreme. -/
theorem exists_extreme (h : l ≠ []) : ∃ v, Extreme l v := by
  obtain ⟨v, hv, hmax⟩ := Set.exists_max_image {y | y ∈ l} (fun y => y.x ^ 2 + y.y ^ 2)
    l.finite_toSet (exists_mem_of_ne_nil l h)
  refine ⟨v, hv, ⟨-v.x, -v.y⟩, fun y hy hne => ?_⟩
  have hle := hmax y hy
  have hpos := sq_pos_of_ne hne
  simp only [level]
  nlinarith

/-- At an extreme corner the ring bends. -/
theorem Simple.turn_ne_zero (h : Simple l) {v : Point ℚ} (hv : Extreme l v)
    (ha : (a, v) ∈ Ring.sides l) (hb : (v, b) ∈ Ring.sides l) : turn a v b ≠ 0 := by
  intro hzero
  obtain ⟨-, g, hg⟩ := hv
  obtain ⟨hav, hvb, -⟩ := h.neighbours_ne ha hb
  obtain ⟨t, ht, rfl⟩ := h.not_back ha hb hzero
  have hga := hg a (Ring.fst_mem_of_mem_sides ha) hav
  have hgb := hg _ (Ring.snd_mem_of_mem_sides hb) (Ne.symm hvb)
  rw [level_lerp] at hgb
  nlinarith

/-- On a side at the lowest corner some point is lower than all other corners. -/
theorem exists_low {g v : Point ℚ} (hg : ∀ y ∈ l, y ≠ v → level g v < level g y) (b : Point ℚ) :
    ∃ t, 0 < t ∧ t < 1 ∧ ∀ y ∈ l, y ≠ v → level g (lerp v b t) < level g y := by
  obtain ⟨t₀, ht₀, hlow⟩ := exists_while
    (fun t y => y ≠ v → level g v + t * (level g b - level g v) < level g y) l fun y hy => by
      by_cases hyv : y = v
      · exact ⟨1, zero_lt_one, fun _ _ _ hne => absurd hyv hne⟩
      · obtain ⟨t₀, ht₀, hlow⟩ := exists_add_mul_lt (hg y hy hyv) (level g b - level g v)
        exact ⟨t₀, ht₀, fun t ht0 ht _ => hlow t ht0 ht⟩
  have ht : 0 < min (1 / 2) t₀ := lt_min (by norm_num) ht₀
  refine ⟨_, ht, (min_le_left _ _).trans_lt (by norm_num), fun y hy hne => ?_⟩
  rw [level_lerp]
  exact hlow _ ht.le (min_le_right _ _) y hy hne

/-- The point that lies as far from `m` as `s` times the way from `a` to `v`, in that direction. -/
def beyond (m a v : Point ℚ) (s : ℚ) : Point ℚ := ⟨m.x - s * (a.x - v.x), m.y - s * (a.y - v.y)⟩

theorem turn_beyond {v : Point ℚ} (a b : Point ℚ) (s t : ℚ) :
    turn v b (beyond (lerp v b t) a v s) = -s * turn a v b := by
  simp only [beyond, turn, lerp]
  ring

theorem level_beyond (g m a v : Point ℚ) (s : ℚ) :
    level g (beyond m a v s) = level g m - s * (level g a - level g v) := by
  simp only [beyond, level]
  ring

/-- From a side the way away from the corner before does not meet the side before: it leads to the
other side of the line. -/
theorem apart_beyond {v : Point ℚ} (hturn : turn a v b ≠ 0) (hvb : v ≠ b) {s t : ℚ} (hs : 0 < s)
    (ht0 : 0 < t) (ht1 : t < 1) : Apart (lerp v b t) (beyond (lerp v b t) a v s) a v := by
  rintro _ ⟨r, hr0, -, rfl⟩ ⟨ρ, -, hρ1, heq⟩
  have hlines : (1 - ρ + r * s) * turn a v b = 0 := by
    have hz := congrArg (turn v b) heq
    simp only [turn_lerp _ _ _ _ r, turn_lerp _ _ _ _ ρ, turn_lerp _ _ _ _ t, turn_beyond,
      turn_self_left, turn_self_right, ← turn_rotate a v b] at hz
    linear_combination -hz
  have hsum := (mul_eq_zero.1 hlines).resolve_right hturn
  have hrs : r * s = 0 := by linarith [mul_nonneg hr0 hs.le]
  have hr : r = 0 := (mul_eq_zero.1 hrs).resolve_right hs.ne'
  have hρ : ρ = 1 := by linarith
  rw [hr, hρ, lerp_zero, lerp_one] at heq
  exact (ne_of_mid hvb ht0 ht1).1 heq

/-- Near an extreme corner a side is seen from outside, on the outer side of the bend. -/
theorem Simple.exists_sees_outside (h : Simple l) {v : Point ℚ} (hv : Extreme l v)
    (ha : (a, v) ∈ Ring.sides l) (hb : (v, b) ∈ Ring.sides l) :
    ∃ m q s, 0 < s ∧ Sees l (v, b) m q ∧ winding l q = 0 ∧ turn v b q = -s * turn a v b := by
  have hturn := h.turn_ne_zero hv ha hb
  obtain ⟨-, g, hg⟩ := hv
  obtain ⟨hav, hvb, -⟩ := h.neighbours_ne ha hb
  have hga := hg a (Ring.fst_mem_of_mem_sides ha) hav
  have hgb := hg b (Ring.snd_mem_of_mem_sides hb) (Ne.symm hvb)
  -- a point on the side, below all other corners
  obtain ⟨t, ht0, ht1, hm⟩ := exists_low hg b
  -- from there away from the corner before, until below the corner itself
  obtain ⟨s, hs, hq⟩ : ∃ s : ℚ, 0 < s ∧ level g (beyond (lerp v b t) a v s) < level g v := by
    have hpos : 0 < level g a - level g v := by linarith
    have hup : level g v < level g (lerp v b t) := by
      rw [level_lerp]
      nlinarith
    refine ⟨(level g (lerp v b t) - level g v) / (level g a - level g v) + 1, ?_, ?_⟩
    · have := div_pos (sub_pos.2 hup) hpos
      linarith
    · rw [level_beyond, add_mul, div_mul_cancel₀ _ hpos.ne']
      linarith
  refine ⟨lerp v b t, _, s, hs, ⟨hb, ⟨t, ht0, ht1, rfl⟩, fun f hf hne => ?_⟩, ?_, turn_beyond a b s t⟩
  · by_cases hfa : f = (a, v)
    · subst hfa
      exact apart_beyond hturn hvb hs ht0 ht1
    · have hends : ∀ y, y ∈ l → y ≠ v → level g (lerp v b t) < level g y ∧
          level g (beyond (lerp v b t) a v s) < level g y :=
        fun y hy hyv => ⟨hm y hy hyv, hq.trans (hg y hy hyv)⟩
      have h1 := hends f.1 (Ring.fst_mem_of_mem_sides hf)
        fun heq => hne (Ring.eq_of_fst_eq h.nodup hf hb heq)
      have h2 := hends f.2 (Ring.snd_mem_of_mem_sides hf)
        fun heq => hfa (Ring.eq_of_snd_eq h.nodup hf ha heq)
      exact Below.apart (g := g) ⟨⟨h1.1, h2.1⟩, h1.2, h2.2⟩
  · refine winding_of_level (g := g) fun y hy => ?_
    by_cases hyv : y = v
    · exact hyv ▸ hq
    · exact hq.trans (hg y hy hyv)

/-! ### Rings that go round to the left -/

/-- Every side has the inside on its left. -/
def Leftward (l : List (Point ℚ)) : Prop := ∀ e ∈ Ring.sides l, Values l e 0

theorem Simple.leftward_of_turn_pos (h : Simple l) {v : Point ℚ} (hv : Extreme l v)
    (ha : (a, v) ∈ Ring.sides l) (hb : (v, b) ∈ Ring.sides l) (hturn : 0 < turn a v b) :
    Leftward l := by
  obtain ⟨k, hk⟩ := h.exists_values
  obtain ⟨m, q, s, hs, hsees, hzero, hq⟩ := h.exists_sees_outside hv ha hb
  have hwinding := (hk _ hb m q hsees).2 (by rw [hq]; nlinarith)
  obtain rfl : k = 0 := by omega
  exact hk

theorem Simple.turn_pos_of_leftward (h : Simple l) (hl : Leftward l) {v : Point ℚ} (hv : Extreme l v)
    (ha : (a, v) ∈ Ring.sides l) (hb : (v, b) ∈ Ring.sides l) : 0 < turn a v b := by
  obtain ⟨m, q, s, hs, hsees, hzero, hq⟩ := h.exists_sees_outside hv ha hb
  rcases lt_or_gt_of_ne (h.turn_ne_zero hv ha hb) with hlt | hgt
  · have hwinding := (hl _ hb m q hsees).1 (by rw [hq]; nlinarith)
    omega
  · exact hgt

end Draftboard.Plane
