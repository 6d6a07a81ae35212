import Draftboard.Proofs.Geometry.Area
import Draftboard.Proofs.Geometry.Dissection
import Draftboard.Proofs.Geometry.TwoEars

/-!
# Draftboard.Proofs.Geometry.EarClipping

Simple polygons are cut up ear by ear, with coordinates that are not rounded.

* The test for ears is the geometric one (`isEar_iff`): the corner turns left, and no other corner lies
  in its closed triangle.
* The looks keep an invariant (`Healthy`): what is left of the polygon is a simple ring that goes round
  to the left, and the last misses were no ears. Such a ring has an ear (`Plane.Simple.exists_ear`), so
  a round without one does not happen (`Healthy.misses_lt`), and what is clipped is an ear
  (`Healthy.isEar_of_clips`).
* At the start the ring is the polygon, in the direction in which its area is positive
  (`healthy_start`).
-/

namespace Draftboard

open List

/-! ### Simple polygons -/

/-- A polygon without self-intersections: sides that do not follow one another are disjoint, and those
that do have only the corner between them in common. Corners on a straight line are allowed. -/
structure SimplePolygon (corners : List (Point ℚ)) : Prop where
  size : 3 ≤ corners.length
  nodup : corners.Nodup
  disjoint : ∀ e ∈ Ring.sides corners, ∀ f ∈ Ring.sides corners, e ≠ f → e.2 ≠ f.1 → f.2 ≠ e.1 →
    Plane.Apart e.1 e.2 f.1 f.2
  adjacent : ∀ e ∈ Ring.sides corners, ∀ f ∈ Ring.sides corners, e.2 = f.1 →
    ∀ z ∈ Plane.segment e.1 e.2, z ∈ Plane.segment f.1 f.2 → z = e.2

/-- Segments are disjoint if one lies strictly on one side of the other's line. -/
theorem Plane.apart_of_mul_pos {a b c d : Point ℚ}
    (h : 0 < turn c d a * turn c d b ∨ 0 < turn a b c * turn a b d) : Apart a b c d := by
  have hside : ∀ a b c d : Point ℚ, 0 < turn c d a * turn c d b → Apart a b c d := by
    intro a b c d hpos
    rcases pos_and_pos_or_neg_and_neg_of_mul_pos hpos with ⟨ha, hb⟩ | ⟨ha, hb⟩
    · exact apart_of_turn_pos ha hb
    · exact apart_of_turn_neg ha hb
  rcases h with h | h
  · exact hside a b c d h
  · exact fun z hz hz' => hside c d a b h z hz' hz

/-- The way from `a` over `b` to `c` does not come back to itself if it turns at `b` or goes on. -/
theorem Plane.eq_of_mem_of_mem {a b c z : Point ℚ} (hab : z ∈ segment a b) (hbc : z ∈ segment b c)
    (h : turn a b c ≠ 0 ∨ 0 < (b.x - a.x) * (c.x - b.x) + (b.y - a.y) * (c.y - b.y)) : z = b := by
  obtain ⟨s, -, hs1, rfl⟩ := hab
  obtain ⟨t, ht0, -, ht⟩ := hbc
  have hx := congrArg Point.x ht
  have hy := congrArg Point.y ht
  simp only [lerp] at hx hy
  have ht : t = 0 := by
    rcases h with h | h
    · have hzero : t * turn a b c = 0 := by
        simp only [turn]
        linear_combination (b.y - a.y) * hx - (b.x - a.x) * hy
      exact (mul_eq_zero.1 hzero).resolve_right h
    · have hback : t * ((b.x - a.x) * (c.x - b.x) + (b.y - a.y) * (c.y - b.y)) =
          -(1 - s) * ((b.x - a.x) ^ 2 + (b.y - a.y) ^ 2) := by
        linear_combination -(b.x - a.x) * hx - (b.y - a.y) * hy
      have hnonneg := mul_nonneg (sub_nonneg.2 hs1)
        (add_nonneg (sq_nonneg (b.x - a.x)) (sq_nonneg (b.y - a.y)))
      by_contra hne
      linarith [mul_pos (lt_of_le_of_ne ht0 (Ne.symm hne)) h]
  subst ht
  exact Point.ext (by simp only [lerp]; linarith) (by simp only [lerp]; linarith)

theorem SimplePolygon.simple {corners : List (Point ℚ)} (h : SimplePolygon corners) :
    Plane.Simple corners := by
  refine ⟨h.size, h.nodup, fun e he f hf hne z hze hzf => ?_⟩
  by_cases hef : e.2 = f.1
  · have hz := h.adjacent e he f hf hef z hze hzf
    exact ⟨.inr hz, .inl (hz.trans hef)⟩
  by_cases hfe : f.2 = e.1
  · have hz := h.adjacent f hf e he hfe z hzf hze
    exact ⟨.inl (hz.trans hfe), .inr hz⟩
  exact absurd hzf (h.disjoint e he f hf hne hef hfe z hze)

namespace Triangulation

/-! ### Misses -/

namespace Clipping

variable {ear : List Nat → Triangle → Bool} {s : Clipping}

/-- The corner at a place of the ring, counted on from the end over the start again. -/
def cornerAt (ring : List Nat) (i : Nat) : Triangle := (⟨ring, i, 0⟩ : Clipping).corner

theorem cornerAt_congr {ring : List Nat} (hring : ring ≠ []) {i j : Nat}
    (h : i % ring.length = j % ring.length) : cornerAt ring i = cornerAt ring j := by
  have hpos := length_pos_iff.2 hring
  have hback : (i + ring.length - 1) % ring.length = (j + ring.length - 1) % ring.length := by
    rw [Nat.add_sub_assoc hpos, Nat.add_sub_assoc hpos, Nat.add_mod i, h, ← Nat.add_mod]
  have hnext : (i + 1) % ring.length = (j + 1) % ring.length := by
    rw [Nat.add_mod i, h, ← Nat.add_mod]
  simp only [cornerAt, corner, h, hback, hnext]

/-- The last places that were looked at were no ears, as many as are counted. -/
def Passed (ear : List Nat → Triangle → Bool) (s : Clipping) : Prop :=
  ∃ i, s.cursor % s.ring.length = (i + s.misses) % s.ring.length ∧
    ∀ k < s.misses, ear s.ring (cornerAt s.ring (i + k)) = false

theorem Passed.next (h : s.Passed ear) (hs : 3 < s.ring.length) : (s.next ear).Passed ear := by
  by_cases hclips : s.Clips ear
  · rw [next_of_clips hclips]
    exact ⟨_, rfl, fun k hk => absurd hk (Nat.not_lt_zero k)⟩
  · rw [next_of_not_clips hclips]
    obtain ⟨i, hi, hpassed⟩ := h
    refine ⟨i, ?_, fun k hk => ?_⟩
    · simp only
      rw [Nat.mod_mod, Nat.add_mod, hi, ← Nat.add_mod, Nat.add_assoc]
    · rcases Nat.lt_succ_iff_lt_or_eq.1 hk with hk | rfl
      · exact hpassed k hk
      · rw [← cornerAt_congr (ne_nil_of_length_pos (by omega)) hi]
        exact Bool.eq_false_iff.2 fun hear => hclips (.inr hear)

/-- Where there is an ear, a whole round does not miss it. -/
theorem Passed.misses_lt (h : s.Passed ear) (hs : s.ring ≠ [])
    (hear : ∃ j, ear s.ring (cornerAt s.ring j) = true) : s.misses < s.ring.length := by
  obtain ⟨i, -, hpassed⟩ := h
  obtain ⟨j, hj⟩ := hear
  have hpos := length_pos_iff.2 hs
  by_contra hle
  -- the place of the ear, as one of the last that were looked at
  have hplace : (i + (j + (s.ring.length - i % s.ring.length)) % s.ring.length) % s.ring.length =
      j % s.ring.length := by
    have hi := Nat.mod_lt i hpos
    rw [Nat.add_mod_mod, ← Nat.mod_add_mod,
      show i % s.ring.length + (j + (s.ring.length - i % s.ring.length)) = j + s.ring.length by omega,
      Nat.add_mod_right]
  have hk := Nat.mod_lt (j + (s.ring.length - i % s.ring.length)) hpos
  have hnone := hpassed _ (hk.trans_le (not_lt.1 hle))
  rw [cornerAt_congr hs hplace, hj] at hnone
  exact Bool.noConfusion hnone

end Clipping

/-! ### Ears -/

section Exact

variable [Scalar.Functions ℚ] {v : Nat → Point ℚ} {s : Clipping}

theorem contains_iff (a b c z : Point ℚ) : contains a b c z = true ↔ z ∈ Plane.triangle a b c := by
  have hturn : ∀ p q : Point ℚ, (q - p).cross (z - p) = Plane.turn p q z := fun p q => rfl
  simp only [contains, hturn, Scalar.zero_rat, Bool.and_eq_true, decide_eq_true_eq, and_assoc]
  rfl

/-- The test for an ear is whether the corner is one. -/
theorem isEar_iff {ring : List Nat} {c n p : Nat} {l : List Nat} (hring : ring ~r c :: n :: (l ++ [p]))
    (hnodup : (ring.map v).Nodup) :
    isEar v ring ⟨p, c, n⟩ = true ↔
      Plane.Ear (ring.map v) (v p) (v c) (v n) := by
  have hmap : ring.map v ~r v c :: v n :: (l.map v ++ [v p]) := by
    simpa using hring.map v
  have hinj : ∀ i ∈ ring, ∀ j ∈ ring, v i = v j → i = j := fun i hi j hj heq =>
    inj_on_of_nodup_map hnodup hi hj heq
  have hp : p ∈ ring := hring.mem_iff.2 (by simp)
  have hc : c ∈ ring := hring.mem_iff.2 (by simp)
  have hn : n ∈ ring := hring.mem_iff.2 (by simp)
  have hturn : (v c - v p).cross (v n - v c) =
      Plane.turn (v p) (v c) (v n) := doubledArea_triangle v ⟨p, c, n⟩
  have hempty : (ring.all fun i => i == p || i == c || i == n ||
      !contains (v p) (v c) (v n) (v i)) = true ↔
        ∀ y ∈ ring.map v, y ≠ v p → y ≠ v c → y ≠ v n →
          y ∉ Plane.triangle (v p) (v c) (v n) := by
    simp only [all_eq_true, Bool.or_eq_true, beq_iff_eq, Bool.not_eq_true', ← contains_iff,
      Bool.not_eq_true, forall_mem_map]
    refine forall₂_congr fun i hi => ⟨fun h hip hic hin => ?_, fun h => ?_⟩
    · rcases h with ((rfl | rfl) | rfl) | h
      · exact absurd rfl hip
      · exact absurd rfl hic
      · exact absurd rfl hin
      · exact h
    · by_cases hip : i = p
      · exact .inl (.inl (.inl hip))
      by_cases hic : i = c
      · exact .inl (.inl (.inr hic))
      by_cases hin : i = n
      · exact .inl (.inr hin)
      exact .inr (h (fun heq => hip (hinj i hi p hp heq)) (fun heq => hic (hinj i hi c hc heq))
        fun heq => hin (hinj i hi n hn heq))
  simp only [isEar, hturn, Scalar.zero_rat]
  split
  · rename_i hle
    exact iff_of_false Bool.false_ne_true fun hear => absurd hear.left (not_lt.2 hle)
  · rename_i hlt
    rw [hempty]
    exact ⟨fun h => ⟨(Ring.mem_sides_iff hmap).2 (Ring.mem_sides_corner.2 (.inl rfl)),
      (Ring.mem_sides_iff hmap).2 (Ring.mem_sides_corner.2 (.inr (.inl rfl))), not_le.1 hlt, h⟩,
      fun hear => hear.empty⟩

/-- A simple ring that goes round to the left has a corner that passes the test. -/
theorem exists_isEar {ring : List Nat} (h : Plane.Simple (ring.map v))
    (hl : Plane.Leftward (ring.map v)) :
    ∃ j, isEar v ring (Clipping.cornerAt ring j) = true := by
  obtain ⟨c, n, l, p, hcorner⟩ := Ring.exists_corner h.size
  obtain ⟨p', x, n', hear, -⟩ := h.exists_ear hl (g := (c, n)) (by simp [hcorner, Ring.sides_cons])
  obtain ⟨j, hj, hx⟩ := getElem_of_mem (Ring.fst_mem_of_mem_sides hear.after)
  rw [length_map] at hj
  rw [getElem_map] at hx
  have hsize : 3 ≤ ring.length := by simpa using h.size
  obtain ⟨c', n, l', p, hring, hcorner, -⟩ :=
    Clipping.Settled.exists_around (s := ⟨ring, j, 0⟩) ⟨hsize, hj⟩
  have hc : c' = ring[j] := by
    have hb := congrArg Triangle.b hcorner
    simpa [Clipping.corner, Nat.mod_eq_of_lt hj, hj] using hb.symm
  subst hc
  -- the two sides at the ear are those at its place in the ring
  have hmap : ring.map v ~r v ring[j] :: v n :: (l'.map v ++ [v p]) := by
    simpa using hring.map v
  have hp := Ring.eq_of_snd_eq h.nodup hear.before
    ((Ring.mem_sides_iff hmap).2 (Ring.mem_sides_corner.2 (.inl rfl))) hx.symm
  have hn := Ring.eq_of_fst_eq h.nodup hear.after
    ((Ring.mem_sides_iff hmap).2 (Ring.mem_sides_corner.2 (.inr (.inl rfl)))) hx.symm
  obtain ⟨rfl, -⟩ := Prod.mk.inj hp
  obtain ⟨rfl, rfl⟩ := Prod.mk.inj hn
  refine ⟨j, ?_⟩
  rw [Clipping.cornerAt, hcorner]
  exact (isEar_iff hring h.nodup).2 hear

/-! ### The looks -/

/-- What is left of a simple polygon, and the looks since the last ear. -/
structure Healthy (v : Nat → Point ℚ) (s : Clipping) : Prop where
  settled : s.Settled
  simple : Plane.Simple (s.ring.map v)
  leftward : Plane.Leftward (s.ring.map v)
  passed : s.Passed (isEar v)

namespace Healthy

theorem misses_lt (h : Healthy v s) : s.misses < s.ring.length :=
  h.passed.misses_lt (ne_nil_of_length_pos (by have := h.settled.size; omega))
    (exists_isEar h.simple h.leftward)

/-- Nothing is clipped but ears. -/
theorem isEar_of_clips (h : Healthy v s) (hclips : s.Clips (isEar v)) :
    isEar v s.ring s.corner = true :=
  hclips.resolve_left (not_le.2 h.misses_lt)

/-- A corner that is clipped is an ear of the polygon that is left. -/
theorem exists_ear (h : Healthy v s) (hclips : s.Clips (isEar v)) :
    ∃ c n l p, s.ring ~r c :: n :: (l ++ [p]) ∧ s.corner = ⟨p, c, n⟩ ∧
      s.ring.eraseIdx (s.cursor % s.ring.length) ~r n :: (l ++ [p]) ∧
      Plane.Ear (s.ring.map v) (v p) (v c) (v n) := by
  obtain ⟨c, n, l, p, hring, hcorner, herase⟩ := h.settled.exists_around
  have hear := h.isEar_of_clips hclips
  rw [hcorner] at hear
  exact ⟨c, n, l, p, hring, hcorner, herase, (isEar_iff hring h.simple.nodup).1 hear⟩

theorem next (h : Healthy v s) (hs : 3 < s.ring.length) : Healthy v (s.next (isEar v)) := by
  have hrest : Plane.Simple ((s.next (isEar v)).ring.map v) ∧
      Plane.Leftward ((s.next (isEar v)).ring.map v) := by
    by_cases hclips : s.Clips (isEar v)
    · obtain ⟨c, n, l, p, hring, -, herase, hear⟩ := h.exists_ear hclips
      have hmap : s.ring.map v ~r v c :: v n :: (l.map v ++ [v p]) := by
        simpa using hring.map v
      have hnext : v n :: (l.map v ++ [v p]) ~r
          (s.next (isEar v)).ring.map v := by
        rw [Clipping.next_of_clips hclips]
        simpa using (herase.map v).symm
      have hl : l.map v ≠ [] := by
        have hlength := hring.perm.length_eq
        simp only [length_cons, length_append, length_nil] at hlength
        exact ne_nil_of_length_pos (by rw [length_map]; omega)
      obtain ⟨hsimple, hleft⟩ := hear.clip h.simple h.leftward hmap hl
      exact ⟨hsimple.rotate hnext, hleft.rotate hnext⟩
    · rw [Clipping.next_of_not_clips hclips]
      exact ⟨h.simple, h.leftward⟩
  exact ⟨h.settled.next hs, hrest.1, hrest.2, h.passed.next hs⟩

theorem reaches {t : Clipping} (h : Healthy v s) (ht : Clipping.Reaches (isEar v) s t) :
    Healthy v t := by
  induction ht with
  | refl => exact h
  | look _ hlength ih => exact ih.next hlength

/-- The three corners that are left at the end go round to the left too. -/
theorem last_left (h : Healthy v s) (hs : s.ring.length ≤ 3) :
    0 < s.last.doubledArea v := by
  obtain ⟨c, n, l, p, hring⟩ := Ring.exists_corner h.settled.size
  have hl : l = [] := by
    have hlength := congrArg List.length hring
    simp only [length_cons, length_append, length_nil] at hlength
    exact length_eq_zero_iff.1 (by omega)
  subst hl
  have hpos := h.simple.shoelace_pos h.leftward
  simpa [Clipping.last, hring, doubledArea_triangle, Plane.shoelace_three] using hpos

/-- Every triangle goes round to the left. -/
theorem left_of_mem (h : Healthy v s) {t : Triangle} (ht : t ∈ s.triangles (isEar v)) :
    0 < t.doubledArea v := by
  rcases Clipping.exists_of_mem_triangles ht with ⟨u, hu, -, hclips, rfl⟩ | ⟨u, hu, hlength, rfl⟩
  · obtain ⟨c, n, l, p, -, hcorner, -, hear⟩ := (h.reaches hu).exists_ear hclips
    rw [hcorner, doubledArea_triangle]
    exact hear.left
  · exact (h.reaches hu).last_left hlength

/-- No other corner of what is left lies in a triangle that is clipped. -/
theorem not_mem_hull (h : Healthy v s) (hclips : s.Clips (isEar v)) {i : Nat}
    (hi : i ∈ s.ring) (ha : i ≠ s.corner.a) (hb : i ≠ s.corner.b) (hc : i ≠ s.corner.c) :
    v i ∉ Plane.hull (v s.corner.a) (v s.corner.b) (v s.corner.c) := by
  obtain ⟨c, n, l, p, hring, hcorner, -, hear⟩ := h.exists_ear hclips
  rw [hcorner] at ha hb hc ⊢
  have hinj : ∀ j ∈ s.ring, i ≠ j → v i ≠ v j := fun j hj hne heq =>
    hne (inj_on_of_nodup_map h.simple.nodup hi hj heq)
  rw [← Plane.mem_triangle_iff hear.left]
  exact hear.empty _ (mem_map_of_mem hi) (hinj p (hring.mem_iff.2 (by simp)) ha)
    (hinj c (hring.mem_iff.2 (by simp)) hb) (hinj n (hring.mem_iff.2 (by simp)) hc)

end Healthy

/-! ### The start -/

/-- With or without the first corner repeated at the end, the corners are the same. -/
theorem map_vertex_range {corners vertices : List (Point ℚ)} (hnodup : corners.Nodup)
    (hsize : 3 ≤ corners.length)
    (hclosed : vertices = corners ∨ ∃ first, corners.head? = some first ∧ vertices = corners ++ [first]) :
    cornerCount vertices = corners.length ∧
      (range (cornerCount vertices)).map (vertex vertices) = corners := by
  obtain ⟨c, n, l, p, rfl⟩ := Ring.exists_corner hsize
  have hcount : cornerCount vertices = (c :: n :: (l ++ [p])).length := by
    rcases hclosed with rfl | ⟨first, hfirst, rfl⟩
    · have hcp : c ≠ p := fun heq => (nodup_cons.1 hnodup).1 (by simp [heq])
      have hconcat := cornerCount_concat c (n :: l) p
      simpa [hcp] using hconcat
    · obtain rfl : c = first := by simpa using hfirst
      have hconcat := cornerCount_concat c (n :: (l ++ [p])) c
      simpa using hconcat
  refine ⟨hcount, ext_getElem (by simp [hcount]) fun i hi hi' => ?_⟩
  have hread : vertices[i]? = some (c :: n :: (l ++ [p]))[i] := by
    rcases hclosed with rfl | ⟨first, -, rfl⟩
    · rw [getElem?_eq_getElem]
    · rw [getElem?_append_left hi', getElem?_eq_getElem]
  simp [vertex, hread]

theorem healthy_start {corners vertices : List (Point ℚ)} (h : SimplePolygon corners)
    (hclosed : vertices = corners ∨ ∃ first, corners.head? = some first ∧ vertices = corners ++ [first]) :
    Healthy (vertex vertices) (start vertices) := by
  obtain ⟨hcount, hcorners⟩ := map_vertex_range h.nodup h.size hclosed
  have hsettled : (start vertices).Settled := settled_start (by rw [hcount]; exact h.size)
  have hsimple : Plane.Simple ((start vertices).ring.map (vertex vertices)) := by
    rcases orient_eq vertices (cornerCount vertices) with heq | heq
    · rw [start, heq, hcorners]
      exact h.simple
    · rw [start, heq, map_reverse, hcorners]
      exact h.simple.reverse
  exact ⟨hsettled, hsimple, hsimple.leftward_of_shoelace_nonneg (shoelace_start vertices ▸ abs_nonneg _),
    ⟨0, by simp [start], fun k hk => absurd hk (Nat.not_lt_zero k)⟩⟩

/-- A simple polygon is cut up without a round of misses, into triangles that go round to the left. They are
the corners that are clipped, each of them when no other corner of what is left lies in it, and the three
corners that are left at the end. -/
theorem triangulate_simple {corners vertices : List (Point ℚ)} (h : SimplePolygon corners)
    (hclosed : vertices = corners ∨ ∃ first, corners.head? = some first ∧ vertices = corners ++ [first]) :
    ∃ triangles, triangulate vertices = .ok triangles ∧
      (∀ t ∈ triangles, 0 < t.doubledArea (vertex vertices)) ∧
      (∀ t, t ∈ triangles ↔ ∃ s, Clipping.Reaches (isEar (vertex vertices)) (start vertices) s ∧
        (3 < s.ring.length ∧ s.Clips (isEar (vertex vertices)) ∧ t = s.corner ∨
          s.ring.length ≤ 3 ∧ t = s.last)) ∧
      ∀ s, Clipping.Reaches (isEar (vertex vertices)) (start vertices) s →
        s.misses < s.ring.length ∧
        (s.Clips (isEar (vertex vertices)) →
          ∀ i ∈ s.ring, i ≠ s.corner.a → i ≠ s.corner.b → i ≠ s.corner.c →
            vertex vertices i ∉ Plane.hull (vertex vertices s.corner.a)
              (vertex vertices s.corner.b) (vertex vertices s.corner.c)) := by
  have hstart := healthy_start h hclosed
  have hsize : 3 ≤ cornerCount vertices := by
    rw [(map_vertex_range h.nodup h.size hclosed).1]
    exact h.size
  refine ⟨_, triangulate_of_le hsize, fun t ht => hstart.left_of_mem ht,
    fun t => Clipping.mem_triangles_iff, fun s hs => ?_⟩
  have hhealthy := hstart.reaches hs
  exact ⟨hhealthy.misses_lt, fun hclips i hi => hhealthy.not_mem_hull hclips hi⟩

end Exact

/-- The outline of an arrowhead, clockwise, with a corner that turns the other way and one on a straight
line. -/
def arrow : List (Point ℚ) := [⟨0, 0⟩, ⟨0, 2⟩, ⟨0, 4⟩, ⟨1, 1⟩, ⟨4, 0⟩]

theorem triangulate_simple_arrow : letI : Scalar.Functions ℚ := default
    SimplePolygon arrow ∧ ∃ triangles, triangulate (arrow ++ [⟨0, 0⟩]) = .ok triangles ∧
      (∀ t ∈ triangles, 0 < t.doubledArea (vertex (arrow ++ [⟨0, 0⟩])) ∧
        ∃ s, Clipping.Reaches (isEar (vertex (arrow ++ [⟨0, 0⟩]))) (start (arrow ++ [⟨0, 0⟩])) s ∧
          (t = s.corner ∨ t = s.last)) ∧
      ∀ s, Clipping.Reaches (isEar (vertex (arrow ++ [⟨0, 0⟩]))) (start (arrow ++ [⟨0, 0⟩])) s →
        s.misses < s.ring.length := by
  let _ : Scalar.Functions ℚ := default
  have hsides : Ring.sides arrow = [(⟨0, 0⟩, ⟨0, 2⟩), (⟨0, 2⟩, ⟨0, 4⟩), (⟨0, 4⟩, ⟨1, 1⟩),
      (⟨1, 1⟩, ⟨4, 0⟩), (⟨4, 0⟩, ⟨0, 0⟩)] := rfl
  have hsimple : SimplePolygon arrow := by
    refine ⟨by decide, by simp [arrow], ?_, ?_⟩
    · norm_num [hsides, Plane.apart_of_mul_pos, Plane.turn]
    · intro e he f hf hef z hze hzf
      have hpath : ∀ e ∈ Ring.sides arrow, ∀ f ∈ Ring.sides arrow, e.2 = f.1 →
          Plane.turn e.1 e.2 f.2 ≠ 0 ∨
            0 < (e.2.x - e.1.x) * (f.2.x - e.2.x) + (e.2.y - e.1.y) * (f.2.y - e.2.y) := by
        norm_num [hsides, Plane.turn]
      exact Plane.eq_of_mem_of_mem hze (hef ▸ hzf) (hpath e he f hf hef)
  obtain ⟨triangles, hok, hleft, hclipped, hlooks⟩ :=
    triangulate_simple hsimple (.inr ⟨⟨0, 0⟩, rfl, rfl⟩)
  refine ⟨hsimple, triangles, hok, fun t ht => ⟨hleft t ht, ?_⟩, fun s hs => (hlooks s hs).1⟩
  obtain ⟨s, hs, ⟨-, -, hcorner⟩ | ⟨-, hlast⟩⟩ := (hclipped t).1 ht
  · exact ⟨s, hs, .inl hcorner⟩
  · exact ⟨s, hs, .inr hlast⟩

end Triangulation

end Draftboard
