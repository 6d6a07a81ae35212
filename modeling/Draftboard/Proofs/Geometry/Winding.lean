import Draftboard.Proofs.Geometry.Plane
import Draftboard.Proofs.Geometry.Ring

/-!
# Draftboard.Proofs.Geometry.Winding

How often a ring of points goes round a point, to the left.

* Each side counts if it crosses the horizontal ray to the right of the point (`crossing`), upwards as
  one and downwards as minus one; `winding` is the sum. It is additive: for a corner that is cut off
  (`winding_corner`) and for a chord that cuts the ring in two (`winding_split`).
* A ring that lies above a point, in any direction, does not go round it (`winding_of_level`). A
  triangle whose corners go round to the left goes once round the points inside (`winding_triangle`).
* When the point moves without meeting a side nothing changes (`winding_eq`), since what a side gains its
  two ends have to account for (`drift_eq_zero`), and all around the ring the ends cancel. When it crosses
  one side to the left of it, it gains one (`winding_cross`).
-/

namespace Draftboard.Plane

open List

variable {a b c d q q' z : Point ℚ}

/-! ### Crossings -/

/-- The displacement from `q` to `a`. -/
def toward (q a : Point ℚ) : Point ℚ := ⟨a.x - q.x, a.y - q.y⟩

/-- The signed area that two displacements span. -/
def area (d e : Point ℚ) : ℚ := d.x * e.y - d.y * e.x

theorem area_toward (q a b : Point ℚ) : area (toward q a) (toward q b) = turn a b q := by
  simp only [area, toward, turn]
  ring

theorem area_swap (d e : Point ℚ) : area e d = -area d e := by
  simp only [area]
  ring

/-- Whether the way from `d` to `e` crosses the ray to the right of the origin: upwards counts one and
downwards minus one. -/
def crossing (d e : Point ℚ) : ℤ :=
  (if d.y ≤ 0 ∧ 0 < e.y ∧ 0 < area d e then 1 else 0) -
    if e.y ≤ 0 ∧ 0 < d.y ∧ area d e < 0 then 1 else 0

theorem crossing_swap (d e : Point ℚ) : crossing e d = -crossing d e := by
  simp only [crossing, area_swap d e, Left.neg_pos_iff, Left.neg_neg_iff]
  ring

theorem crossing_of_area_pos {d e : Point ℚ} (h : 0 < area d e) :
    crossing d e = if d.y ≤ 0 ∧ 0 < e.y then 1 else 0 := by
  simp [crossing, h, h.not_gt]

/-- On one side of a line through the origin, only the ends of a way matter. -/
theorem crossing_of_level {g d e : Point ℚ} (hd : 0 < level g d) (he : 0 < level g e) :
    crossing d e = (if 0 < g.x ∧ 0 < e.y then 1 else 0) - if 0 < g.x ∧ 0 < d.y then 1 else 0 := by
  simp only [level] at hd he
  have harea : g.x * area d e = (g.x * d.x) * e.y - d.y * (g.x * e.x) := by
    simp only [area]
    ring
  rcases le_or_gt d.y 0 with hdy | hdy
  · rcases le_or_gt e.y 0 with hey | hey
    · simp [crossing, hdy.not_gt, hey.not_gt]
    · have hpos : 0 < g.x * area d e := by nlinarith
      rcases le_or_gt g.x 0 with hg | hg
      · have : area d e ≤ 0 := by
          by_contra hlt
          nlinarith
        simp [crossing, hdy.not_gt, hey, hey.not_ge, hg.not_gt, this.not_gt]
      · have : 0 < area d e := by
          by_contra hle
          nlinarith
        simp [crossing, hdy, hdy.not_gt, hey, hey.not_ge, hg, this]
  · rcases le_or_gt e.y 0 with hey | hey
    · have hneg : g.x * area d e < 0 := by nlinarith
      rcases le_or_gt g.x 0 with hg | hg
      · have : 0 ≤ area d e := by
          by_contra hlt
          nlinarith
        simp [crossing, hdy, hdy.not_ge, hey.not_gt, hg.not_gt, this.not_gt]
      · have : area d e < 0 := by
          by_contra hle
          nlinarith
        simp [crossing, hdy, hdy.not_ge, hey, hey.not_gt, hg, this]
    · simp [crossing, hdy, hdy.not_ge, hey, hey.not_ge]

/-! ### Winding numbers -/

/-- How a side counts as seen from `q`. -/
def count (q : Point ℚ) (e : Point ℚ × Point ℚ) : ℤ := crossing (toward q e.1) (toward q e.2)

theorem count_swap (q a b : Point ℚ) : count q (b, a) = -count q (a, b) := crossing_swap _ _

/-- How often a ring goes round `q`. -/
def winding (l : List (Point ℚ)) (q : Point ℚ) : ℤ := ((Ring.sides l).map (count q)).sum

theorem winding_rotate {l m : List (Point ℚ)} (h : l ~r m) (q : Point ℚ) :
    winding l q = winding m q :=
  ((Ring.sides_perm h).map _).sum_eq

theorem winding_three (a b c q : Point ℚ) :
    winding [a, b, c] q = count q (a, b) + count q (b, c) + count q (c, a) := by
  simp [winding, Ring.sides_cons, add_assoc]

/-- A corner that is cut off takes its triangle with it. -/
theorem winding_corner (c n : Point ℚ) (l : List (Point ℚ)) (p q : Point ℚ) :
    winding (c :: n :: (l ++ [p])) q = winding (n :: (l ++ [p])) q + winding [p, c, n] q := by
  have hback := count_swap q p n
  rw [winding_three, winding, winding, Ring.sides_corner, Ring.sides_without]
  simp only [cons_append, map_cons, map_append, map_nil, sum_cons, sum_append, sum_nil]
  linarith

/-- A chord cuts a ring in two. -/
theorem winding_split (v : Point ℚ) (l : List (Point ℚ)) (w : Point ℚ) (m : List (Point ℚ))
    (q : Point ℚ) : winding (v :: (l ++ w :: m)) q =
      winding (v :: (l ++ [w])) q + winding (v :: w :: m) q := by
  obtain ⟨hall, hleft, hright⟩ := Ring.sides_split v l w m
  have hback := count_swap q v w
  simp only [winding, hall, hleft, hright, map_cons, map_append, map_nil, sum_cons, sum_append,
    sum_nil]
  linarith

/-- A ring that lies above `q` in some direction does not go round it. -/
theorem winding_of_level {l : List (Point ℚ)} {g : Point ℚ} (h : ∀ v ∈ l, level g q < level g v) :
    winding l q = 0 := by
  have hlevel : ∀ v ∈ l, 0 < level g (toward q v) := by
    intro v hv
    have hv := h v hv
    simp only [level, toward] at hv ⊢
    linarith
  have hcount : (Ring.sides l).map (count q) = (Ring.sides l).map fun e =>
      (if 0 < g.x ∧ 0 < (toward q e.2).y then (1 : ℤ) else 0) -
        if 0 < g.x ∧ 0 < (toward q e.1).y then 1 else 0 :=
    map_congr_left fun e he => crossing_of_level (hlevel _ (Ring.fst_mem_of_mem_sides he))
      (hlevel _ (Ring.snd_mem_of_mem_sides he))
  rw [winding, hcount]
  exact Ring.sum_sides_sub (fun v => if 0 < g.x ∧ 0 < (toward q v).y then (1 : ℤ) else 0) l

/-- A triangle goes once round a point to the left of its three sides. -/
theorem winding_triangle (hab : 0 < turn a b q) (hbc : 0 < turn b c q) (hca : 0 < turn c a q) :
    winding [a, b, c] q = 1 := by
  have hcount : ∀ u v, 0 < turn u v q →
      count q (u, v) = if (toward q u).y ≤ 0 ∧ 0 < (toward q v).y then 1 else 0 :=
    fun u v h => crossing_of_area_pos (by rwa [area_toward])
  -- the corners balance about `q`, so they are not all above it and not all below
  have hbalance : turn b c q * (toward q a).y + turn c a q * (toward q b).y +
      turn a b q * (toward q c).y = 0 := by
    simp only [turn, toward]
    ring
  rw [winding_three, hcount a b hab, hcount b c hbc, hcount c a hca]
  by_cases ha : 0 < (toward q a).y
  · by_cases hb : 0 < (toward q b).y
    · by_cases hc : 0 < (toward q c).y
      · nlinarith [mul_pos hbc ha, mul_pos hca hb, mul_pos hab hc]
      · simp [ha, hb, not_lt.1 hc, ha.not_ge, hb.not_ge]
    · by_cases hc : 0 < (toward q c).y
      · simp [ha, hb, hc, not_lt.1 hb, ha.not_ge, hc.not_ge]
      · simp [ha, hb, hc, not_lt.1 hc, ha.not_ge]
  · by_cases hb : 0 < (toward q b).y
    · simp [ha, hb, not_lt.1 ha, hb.not_ge]
    · by_cases hc : 0 < (toward q c).y
      · simp [ha, hb, hc, not_lt.1 hb]
      · rw [not_lt] at ha hb hc
        have ha0 : turn b c q * (toward q a).y = 0 := by nlinarith
        have hb0 : turn c a q * (toward q b).y = 0 := by nlinarith
        have hya := (mul_eq_zero.1 ha0).resolve_left hbc.ne'
        have hyb := (mul_eq_zero.1 hb0).resolve_left hca.ne'
        rw [← area_toward, area, hya, hyb] at hab
        simp at hab

/-! ### Moving the point -/

/-- What a side gains when the point moves from `q` to `q'`, less what its ends account for. -/
def drift (q q' : Point ℚ) (e : Point ℚ × Point ℚ) : ℤ :=
  count q' e - count q e + (crossing (toward q e.1) (toward q' e.1) -
    crossing (toward q e.2) (toward q' e.2))

theorem winding_sub (l : List (Point ℚ)) (q q' : Point ℚ) :
    winding l q' - winding l q = ((Ring.sides l).map (drift q q')).sum := by
  have hends := Ring.sum_sides_sub (fun v => crossing (toward q v) (toward q' v)) l
  have hsplit : ∀ es : List (Point ℚ × Point ℚ), (es.map (drift q q')).sum =
      (es.map (count q')).sum - (es.map (count q)).sum -
        (es.map fun e => crossing (toward q e.2) (toward q' e.2) -
          crossing (toward q e.1) (toward q' e.1)).sum := by
    intro es
    induction es with
    | nil => simp
    | cons e es ih =>
      simp only [map_cons, sum_cons, ih, drift]
      ring
  rw [hsplit, hends, sub_zero]
  rfl

theorem drift_eq_zero_of_below {g : Point ℚ} (h : Below g q q' a b) : drift q q' (a, b) = 0 := by
  obtain ⟨⟨hqa, hqb⟩, hq'a, hq'b⟩ := h
  have hpos : ∀ u v : Point ℚ, level g u < level g v → 0 < level g (toward u v) := by
    intro u v huv
    simp only [level, toward] at huv ⊢
    linarith
  simp only [drift, count, crossing_of_level (hpos _ _ hqa) (hpos _ _ hqb),
    crossing_of_level (hpos _ _ hq'a) (hpos _ _ hq'b), crossing_of_level (hpos _ _ hqa) (hpos _ _ hq'a),
    crossing_of_level (hpos _ _ hqb) (hpos _ _ hq'b)]
  ring

theorem drift_eq_zero (h : Apart q q' a b) (hne : a ≠ b) : drift q q' (a, b) = 0 := by
  obtain ⟨g, hg⟩ := h.exists_below hne
  exact drift_eq_zero_of_below hg

/-- A point that moves without meeting a side is gone round as often as before. -/
theorem winding_eq {l : List (Point ℚ)} (hne : ∀ e ∈ Ring.sides l, e.1 ≠ e.2)
    (h : ∀ e ∈ Ring.sides l, Apart q q' e.1 e.2) : winding l q = winding l q' := by
  have hsub := winding_sub l q q'
  rw [sum_eq_zero fun x hx => by
    obtain ⟨e, he, rfl⟩ := mem_map.1 hx
    exact drift_eq_zero (h e he) (hne e he)] at hsub
  linarith

/-- A point that crosses the side from `a` to `b`, towards a point `z` to the left of it, goes into the
triangle `abz`. -/
theorem drift_cross (hz : 0 < turn a b z) {s t : ℚ} (hs0 : 0 < s) (hs1 : s < 1) (ht0 : 0 < t)
    (ht1 : t < 1) : drift (lerp (lerp a b s) z (-t)) (lerp (lerp a b s) z t) (a, b) = 1 := by
  have hab : ∀ r, turn a b (lerp (lerp a b s) z r) = r * turn a b z := by
    intro r
    simp only [turn, lerp]
    ring
  have hbz : ∀ r, turn b z (lerp (lerp a b s) z r) = (1 - r) * ((1 - s) * turn a b z) := by
    intro r
    simp only [turn, lerp]
    ring
  have hza : ∀ r, turn z a (lerp (lerp a b s) z r) = (1 - r) * (s * turn a b z) := by
    intro r
    simp only [turn, lerp]
    ring
  have hpos : 0 < (1 - s) * turn a b z := mul_pos (by linarith) hz
  have hpos' : 0 < s * turn a b z := mul_pos hs0 hz
  -- the other two sides of the triangle are not met
  have hfar : ∀ {u v : Point ℚ} {k : ℚ}, 0 < k →
      (∀ r, turn u v (lerp (lerp a b s) z r) = (1 - r) * k) →
        drift (lerp (lerp a b s) z (-t)) (lerp (lerp a b s) z t) (v, u) = 0 := by
    intro u v k hk hturn
    refine drift_eq_zero_of_below (g := leftOf v u) ?_
    have hlow : ∀ r, r < 1 → level (leftOf v u) (lerp (lerp a b s) z r) < level (leftOf v u) v := by
      intro r hr
      have hr' : 0 < (1 - r) * k := mul_pos (by linarith) hk
      rw [level_leftOf, turn_swap, hturn]
      linarith
    have hsame : level (leftOf v u) u = level (leftOf v u) v := by rw [level_leftOf]; simp
    rw [Below, hsame]
    exact ⟨⟨hlow _ (by linarith), hlow _ (by linarith)⟩, hlow _ ht1, hlow _ ht1⟩
  have houter : winding [a, b, z] (lerp (lerp a b s) z (-t)) = 0 := by
    refine winding_of_level (g := leftOf a b) fun v hv => ?_
    have hlow : turn a b (lerp (lerp a b s) z (-t)) < 0 := by
      rw [hab]
      nlinarith
    rw [level_leftOf, level_leftOf a b v]
    simp only [mem_cons, not_mem_nil, or_false] at hv
    rcases hv with rfl | rfl | rfl
    · simpa using hlow
    · simpa using hlow
    · linarith
  have hinner : winding [a, b, z] (lerp (lerp a b s) z t) = 1 := by
    refine winding_triangle ?_ ?_ ?_
    · rw [hab]
      exact mul_pos ht0 hz
    · rw [hbz]
      exact mul_pos (by linarith) hpos
    · rw [hza]
      exact mul_pos (by linarith) hpos'
  have hbz' := hfar hpos hbz
  have hza' := hfar hpos' hza
  rw [winding_three] at houter hinner
  simp only [drift, count_swap _ b z, count_swap _ z a] at hbz' hza' ⊢
  linarith

/-- When the point crosses one side and no other one, it is gone round once more. -/
theorem winding_cross {l : List (Point ℚ)} (hl : l.Nodup) (hside : (a, b) ∈ Ring.sides l)
    (hz : 0 < turn a b z) {s t : ℚ} (hs0 : 0 < s) (hs1 : s < 1) (ht0 : 0 < t) (ht1 : t < 1)
    (hne : ∀ e ∈ Ring.sides l, e.1 ≠ e.2)
    (h : ∀ e ∈ Ring.sides l, e ≠ (a, b) →
      Apart (lerp (lerp a b s) z (-t)) (lerp (lerp a b s) z t) e.1 e.2) :
    winding l (lerp (lerp a b s) z t) = winding l (lerp (lerp a b s) z (-t)) + 1 := by
  obtain ⟨before, after, hsplit⟩ := append_of_mem hside
  have hperm : (Ring.sides l).Perm ((a, b) :: (before ++ after)) := hsplit ▸ perm_middle
  have hrest : ((before ++ after).map
      (drift (lerp (lerp a b s) z (-t)) (lerp (lerp a b s) z t))).sum = 0 := by
    refine sum_eq_zero fun x hx => ?_
    obtain ⟨e, he, rfl⟩ := mem_map.1 hx
    have hmem := hperm.mem_iff.2 (mem_cons_of_mem _ he)
    have hother : e ≠ (a, b) := fun heq =>
      (nodup_cons.1 (hperm.nodup_iff.1 (Ring.nodup_sides hl))).1 (heq ▸ he)
    exact drift_eq_zero (h e hmem hother) (hne e hmem)
  have hsub := winding_sub l (lerp (lerp a b s) z (-t)) (lerp (lerp a b s) z t)
  rw [(hperm.map _).sum_eq, map_cons, sum_cons, drift_cross hz hs0 hs1 ht0 ht1, hrest] at hsub
  linarith

end Draftboard.Plane
