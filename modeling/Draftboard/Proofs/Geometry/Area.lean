import Draftboard.Proofs.Geometry.Shoelace
import Draftboard.Proofs.Geometry.Subscript
import Draftboard.Proofs.Number.Rational

/-!
# Draftboard.Proofs.Geometry.Area

The triangles of a polygon have its area, with coordinates that are not rounded.

A clipped corner takes the area of its triangle out of the ring (`Plane.shoelace_corner`), so by
induction along the looks the areas of the triangles add up to that of the ring
(`Clipping.sum_triangles`), whatever is taken for an ear. The ring at the start goes round the polygon
in the direction in which its area is not negative (`shoelace_start`).
-/

namespace Draftboard

open List

/-- Twice the signed area of the triangle on three vertices. -/
def Triangle.doubledArea {α : Type} [Scalar α] (vertex : Nat → Point α) (t : Triangle) : α :=
  (vertex t.b - vertex t.a).cross (vertex t.c - vertex t.b)

namespace Triangulation

section Exact

variable [Scalar.Functions ℚ]

theorem doubledArea_triangle (vertex : Nat → Point ℚ) (t : Triangle) :
    t.doubledArea vertex = Plane.turn (vertex t.a) (vertex t.b) (vertex t.c) := by
  rw [Triangle.doubledArea, Point.cross_sub_rat, Plane.turn]
  ring

theorem doubledArea_eq_sum (vertex : Nat → Point ℚ) (count : Nat) :
    doubledArea vertex count =
      ((range count).map fun i => (vertex i).cross (vertex ((i + 1) % count))).sum := by
  have hfold : ∀ (l : List Nat) (sum : ℚ),
      l.foldl (fun sum i => sum + (vertex i).cross (vertex ((i + 1) % count))) sum =
        sum + (l.map fun i => (vertex i).cross (vertex ((i + 1) % count))).sum := by
    intro l
    induction l with
    | nil => simp
    | cons i l ih =>
      intro sum
      rw [foldl_cons, ih, map_cons, sum_cons, ← add_assoc]
  rw [doubledArea, hfold, Scalar.zero_rat, zero_add]

/-- The area that decides about the direction is the sum along the sides. -/
theorem doubledArea_eq_shoelace (vertex : Nat → Point ℚ) (count : Nat) :
    doubledArea vertex count = Plane.shoelace ((range count).map vertex) := by
  rw [doubledArea_eq_sum, Plane.shoelace, Ring.sides_map, Ring.sides_range, map_map, map_map]
  rfl

/-- The ring at the start goes round in the direction in which the area is not negative. -/
theorem shoelace_start (vertices : List (Point ℚ)) :
    Plane.shoelace ((start vertices).ring.map (vertex vertices)) =
      |doubledArea (vertex vertices) (cornerCount vertices)| := by
  rw [start, orient]
  dsimp only
  rw [Scalar.zero_rat]
  split
  · rename_i hneg
    rw [map_reverse, Plane.shoelace_reverse, ← doubledArea_eq_shoelace, abs_of_neg hneg]
  · rename_i hnonneg
    rw [← doubledArea_eq_shoelace, abs_of_nonneg (not_lt.1 hnonneg)]

/-- What is clipped and what is left has the area of the ring. -/
theorem Clipping.sum_triangles (ear : List Nat → Triangle → Bool) (vertex : Nat → Point ℚ)
    {s : Clipping} (h : s.Settled) :
    ((s.triangles ear).map (Triangle.doubledArea vertex)).sum =
      Plane.shoelace (s.ring.map vertex) := by
  induction s using Clipping.induct ear with
  | last s hs =>
    obtain ⟨c, n, l, p, hring⟩ := Ring.exists_corner h.size
    have hl : l = [] := by
      have hlength := congrArg List.length hring
      simp only [length_cons, length_append, length_nil] at hlength
      exact length_eq_zero_iff.1 (by omega)
    subst hl
    simp [Clipping.triangles_of_le hs, Clipping.last, hring, doubledArea_triangle,
      Plane.shoelace_three]
  | look s hs ih =>
    have hih := ih (h.next hs)
    by_cases hclips : s.Clips ear
    · obtain ⟨c, n, l, p, hring, hcorner, herase⟩ := h.exists_around
      rw [Clipping.triangles_of_clips hs hclips, map_cons, sum_cons, hih, hcorner,
        doubledArea_triangle, Clipping.next_of_clips hclips,
        Plane.shoelace_rotate (herase.map vertex), Plane.shoelace_rotate (hring.map vertex)]
      simp only [map_cons, map_append, map_nil]
      rw [Plane.shoelace_corner]
      ring
    · rw [Clipping.triangles_of_not_clips hs hclips, hih, Clipping.next_of_not_clips hclips]

/-- The areas of the triangles of a polygon add up to the area of the polygon, in the direction in which
it is not negative, and so they would with any other outcomes of the test for ears. -/
theorem triangulate_area (vertices : List (Point ℚ)) (h : 3 ≤ cornerCount vertices) :
    (∃ triangles, triangulate vertices = .ok triangles ∧
      (triangles.map (Triangle.doubledArea (vertex vertices))).sum =
        |((range (cornerCount vertices)).map fun i =>
          (vertex vertices i).cross (vertex vertices ((i + 1) % cornerCount vertices))).sum|) ∧
    ∀ ear, ((clipEars ear (orient (vertex vertices) (cornerCount vertices)) 0 0).map
      (Triangle.doubledArea (vertex vertices))).sum =
        |((range (cornerCount vertices)).map fun i =>
          (vertex vertices i).cross (vertex vertices ((i + 1) % cornerCount vertices))).sum| := by
  rw [← doubledArea_eq_sum, ← shoelace_start]
  have hsum := fun ear => Clipping.sum_triangles ear (vertex vertices) (settled_start h)
  exact ⟨⟨_, triangulate_of_le h, hsum _⟩, hsum⟩

end Exact

/-- A star that crosses itself, with its first corner repeated at the end. -/
def star : List (Point ℚ) := [⟨0, 3⟩, ⟨2, -3⟩, ⟨-3, 1⟩, ⟨3, 1⟩, ⟨-2, -3⟩, ⟨0, 3⟩]

theorem triangulate_area_star : letI : Scalar.Functions ℚ := default
    3 ≤ cornerCount star ∧ ∃ triangles, triangulate star = .ok triangles ∧
      (triangles.map (Triangle.doubledArea (vertex star))).sum = 32 := by
  let _ : Scalar.Functions ℚ := default
  have hcount : cornerCount star = 5 := by decide
  obtain ⟨triangles, hok, hsum⟩ := (triangulate_area star (by omega)).1
  refine ⟨by omega, triangles, hok, hsum.trans ?_⟩
  rw [hcount]
  norm_num [star, vertex, range_succ, Point.cross_rat]

end Triangulation

end Draftboard
