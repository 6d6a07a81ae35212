import Draftboard.Proofs.Geometry.Area
import Draftboard.Proofs.Geometry.Casteljau

/-!
# Draftboard.Proofs.Geometry.Translation

Polygons and curves all of whose points are moved by the same offset, with coordinates that are not
rounded.

* What makes a corner an ear is said by differences of vertices, and these do not see the offset
  (`isEar_translate`). The area as a sum along the sides does not see it either, since what the
  offset adds cancels in a whole round (`Plane.shoelace_translate`). So the looks of two clippings go
  the same way, and the moved polygon has the same triangles (`triangulate_translate`).
* Interpolation moves along with its points, rung by rung, and so does a curve of at most 21 points
  (`Curve.sample_translate`). The weights of 22 points do not add up to one any more
  (`Curve.x_evaluate_replicate`).
-/

namespace Draftboard

open List

namespace Triangulation.Clipping

variable {ear ear' : List Nat → Triangle → Bool}

/-- Tests that say the same of every corner that is looked at clip the same triangles. -/
theorem triangles_congr {s : Clipping}
    (h : ∀ t, Reaches ear s t → ear t.ring t.corner = ear' t.ring t.corner) :
    s.triangles ear = s.triangles ear' := by
  induction s using induct ear with
  | last s hs => rw [triangles_of_le hs, triangles_of_le hs]
  | look s hs ih =>
    have hsame := h s (.refl s)
    have hnext := ih fun t ht => h t (ht.of_next hs)
    by_cases hclips : s.Clips ear
    · have hclips' : s.Clips ear' := by rwa [Clips, ← hsame]
      rw [triangles_of_clips hs hclips, triangles_of_clips hs hclips', hnext, next_of_clips hclips,
        next_of_clips hclips']
    · have hclips' : ¬ s.Clips ear' := by rwa [Clips, ← hsame]
      rw [triangles_of_not_clips hs hclips, triangles_of_not_clips hs hclips', hnext,
        next_of_not_clips hclips, next_of_not_clips hclips']

end Triangulation.Clipping

variable [Scalar.Functions ℚ]

/-! ### Points -/

namespace Point

variable (p q offset : Point ℚ)

@[simp] theorem add_origin_rat : p + origin = p := by ext <;> simp

theorem add_sub_add_rat : p + offset - (q + offset) = p - q := by ext <;> simp

theorem add_beq_add_rat : (p + offset == q + offset) = (p == q) := by
  rw [Bool.eq_iff_iff, beq_iff_eq, beq_iff_eq, Point.ext_iff, Point.ext_iff]
  simp

end Point

namespace Plane

theorem area_translate (p q offset : Point ℚ) :
    area (p + offset) (q + offset) = area p q + (area offset q - area offset p) := by
  simp only [area, Point.x_add_rat, Point.y_add_rat]
  ring

/-- What the offset adds to the area cancels in a whole round. -/
theorem shoelace_translate (l : List (Point ℚ)) (offset : Point ℚ) :
    shoelace (l.map (· + offset)) = shoelace l := by
  have hside : ((fun e => area e.1 e.2) ∘ Prod.map (· + offset) (· + offset)) =
      fun e : Point ℚ × Point ℚ => area e.1 e.2 + (area offset e.2 - area offset e.1) := by
    funext e
    exact area_translate e.1 e.2 offset
  rw [shoelace, Ring.sides_map, map_map, hside, sum_map_add, Ring.sum_sides_sub (area offset),
    add_zero, shoelace]

theorem lerp_translate (p q offset : Point ℚ) (t : ℚ) :
    lerp (p + offset) (q + offset) t = lerp p q t + offset := by
  ext <;> simp only [lerp, Point.x_add_rat, Point.y_add_rat] <;> ring

end Plane

/-! ### Polygons -/

namespace Triangulation

variable {vertices : List (Point ℚ)} {ring : List Nat} {t : Triangle}

theorem cornerCount_translate (vertices : List (Point ℚ)) (offset : Point ℚ) :
    cornerCount (vertices.map (· + offset)) = cornerCount vertices := by
  rw [cornerCount, cornerCount, head?_map, getLast?_map, length_map]
  cases vertices.head? with
  | none => rfl
  | some first =>
    cases vertices.getLast? with
    | none => rfl
    | some last => simp only [Option.map_some, Point.add_beq_add_rat]

theorem vertex_translate {i : Nat} (h : i < vertices.length) (offset : Point ℚ) :
    vertex (vertices.map (· + offset)) i = vertex vertices i + offset := by
  simp [vertex, h]

/-- Whether a corner is an ear is read off differences of vertices. -/
theorem isEar_translate (hring : ∀ i ∈ ring, i < vertices.length) (ha : t.a ∈ ring)
    (hb : t.b ∈ ring) (hc : t.c ∈ ring) (offset : Point ℚ) :
    isEar (vertex (vertices.map (· + offset))) ring t = isEar (vertex vertices) ring t := by
  have hmoved : ∀ i ∈ ring, vertex (vertices.map (· + offset)) i = vertex vertices i + offset :=
    fun i hi => vertex_translate (hring i hi) offset
  have hcontains : ∀ i ∈ ring,
      contains (vertex vertices t.a + offset) (vertex vertices t.b + offset)
        (vertex vertices t.c + offset) (vertex (vertices.map (· + offset)) i) =
      contains (vertex vertices t.a) (vertex vertices t.b) (vertex vertices t.c)
        (vertex vertices i) := by
    intro i hi
    simp only [contains, hmoved i hi, Point.add_sub_add_rat]
  simp only [isEar, hmoved _ ha, hmoved _ hb, hmoved _ hc, Point.add_sub_add_rat]
  congr 1
  rw [Bool.eq_iff_iff, all_eq_true, all_eq_true]
  refine forall₂_congr fun i hi => ?_
  rw [hcontains i hi]

theorem doubledArea_translate (offset : Point ℚ) {count : Nat} (h : count ≤ vertices.length) :
    doubledArea (vertex (vertices.map (· + offset))) count = doubledArea (vertex vertices) count := by
  have hmoved : (range count).map (vertex (vertices.map (· + offset))) =
      ((range count).map (vertex vertices)).map (· + offset) := by
    rw [map_map]
    refine map_congr_left fun i hi => ?_
    exact vertex_translate ((mem_range.1 hi).trans_le h) offset
  rw [doubledArea_eq_shoelace, doubledArea_eq_shoelace, hmoved, Plane.shoelace_translate]

theorem start_translate (vertices : List (Point ℚ)) (offset : Point ℚ) :
    start (vertices.map (· + offset)) = start vertices := by
  rw [start, start, cornerCount_translate, orient, orient,
    doubledArea_translate offset (cornerCount_le vertices)]

end Triangulation

open Triangulation in
/-- A polygon has the same triangles wherever it lies. -/
theorem triangulate_translate (vertices : List (Point ℚ)) (offset : Point ℚ) :
    triangulate (vertices.map (· + offset)) = triangulate vertices := by
  rcases Nat.lt_or_ge (cornerCount vertices) 3 with hfew | hmany
  · rw [triangulate_of_lt hfew, triangulate_of_lt (by rwa [cornerCount_translate]),
      cornerCount_translate]
  · rw [triangulate_of_le hmany, triangulate_of_le (by rwa [cornerCount_translate]), start_translate]
    congr 1
    refine (Clipping.triangles_congr fun t ht => ?_).symm
    obtain ⟨ha, hb, hc⟩ := (ht.settled (settled_start hmany)).corner_mem
    have hring : ∀ i ∈ t.ring, i < vertices.length := fun i hi =>
      (lt_length_of_reaches ht hi).trans_le (cornerCount_le vertices)
    exact (isEar_translate hring ha hb hc offset).symm

/-! ### Curves -/

namespace Curve

variable {points : List (Point ℚ)}

theorem rung_translate (t : ℚ) (points : List (Point ℚ)) (offset : Point ℚ) :
    rung t (points.map (· + offset)) = (rung t points).map (· + offset) := by
  apply ext_getElem
  · simp [rung]
  · intro i hi hi'
    simp [rung, Plane.lerp_translate]

theorem casteljau_translate (t : ℚ) (h : points ≠ []) (offset : Point ℚ) :
    casteljau t (points.map (· + offset)) = casteljau t points + offset := by
  fun_induction casteljau t points with
  | case1 => exact absurd rfl h
  | case2 p => rw [map_singleton, casteljau]
  | case3 p q rest ih =>
    rw [← ih (by simp [rung]), ← rung_translate, map_cons, map_cons, casteljau]

theorem evaluate_translate (h : points ≠ []) (hlength : points.length ≤ 21) (t : ℚ)
    (offset : Point ℚ) : evaluate (points.map (· + offset)) t = evaluate points t + offset := by
  rw [evaluate_eq h hlength, evaluate_eq (by simpa using h) (by simpa using hlength),
    casteljau_translate t h]

/-- A curve of at most 21 points moves along with them. -/
theorem sample_translate (h : points ≠ []) (hlength : points.length ≤ 21) (steps : ℕ)
    (offset : Point ℚ) :
    sample (points.map (· + offset)) steps = (sample points steps).map (· + offset) := by
  rw [sample, sample]
  split
  · rw [evaluate_translate h hlength, map_singleton]
  · rw [map_map]
    exact map_congr_left fun k _ => evaluate_translate h hlength _ offset

theorem weight_half {n i : ℕ} (h : i ≤ n) :
    weight n i (1 / 2 : ℚ) = (binomial n i).toNat * (1 / 2) ^ n := by
  have hhalf : (1 - 1 / 2 : ℚ) ^ (n - i) * (1 / 2) ^ i = (1 / 2) ^ n := by
    rw [sub_half, ← pow_add, Nat.sub_add_cancel h]
  rw [weight, weightOf, Scalar.power_rat, Scalar.power_rat, Scalar.one_rat, Scalar.ofNat_rat, mul_assoc,
    hhalf]

/-- With 22 points the binomials are cut off. Even if all the points are one, the curve is elsewhere in its
middle. -/
theorem x_evaluate_replicate (p : Point ℚ) :
    (evaluate (replicate 22 p) (1 / 2)).x = 582762 * (1 / 2) ^ 21 * p.x := by
  have hsum : ∑ i ∈ Finset.range 22, (binomial 21 i).toNat = 582762 := by decide +kernel
  have hterm : ∀ i ∈ Finset.range 22, weight 21 (0 + i) (1 / 2 : ℚ) *
      ((replicate 22 p).getD i Point.origin).x = ((binomial 21 i).toNat : ℚ) * ((1 / 2) ^ 21 * p.x) := by
    intro i hi
    have hi : i < 22 := Finset.mem_range.1 hi
    rw [getD_eq_getElem _ _ (by simpa using hi), getElem_replicate, Nat.zero_add,
      weight_half (by omega), mul_assoc]
  rw [evaluate, coordinate_x.weightedSum, coordinate_x.origin, zero_add, length_replicate,
    Finset.sum_congr rfl hterm, ← Finset.sum_mul, ← Nat.cast_sum, hsum, mul_assoc]
  norm_num

/-- The middle of a curve on screen. -/
theorem getElem?_sample_half (points : List (Point ℚ)) :
    (sample points screenSteps)[25]? = some (evaluate points (1 / 2)) := by
  have hratio : (Scalar.ratio 25 50 : ℚ) = 1 / 2 := by
    rw [Scalar.ratio_rat]
    norm_num
  rw [← hratio]
  rfl

omit [Scalar.Functions ℚ] in
theorem controlPolygon_ne_nil {α : Type} (start : Point α) (controls : List (Point α))
    (stop : Point α) : controlPolygon start controls stop ≠ [] :=
  cons_ne_nil _ _

theorem controlPolygon_translate (start : Point ℚ) (controls : List (Point ℚ)) (stop offset : Point ℚ) :
    controlPolygon (start + offset) (controls.map (· + offset)) (stop + offset) =
      (controlPolygon start controls stop).map (· + offset) := by
  simp [controlPolygon]

end Curve

end Draftboard
