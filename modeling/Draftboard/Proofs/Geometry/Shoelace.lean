import Draftboard.Proofs.Geometry.Winding

/-!
# Draftboard.Proofs.Geometry.Shoelace

Twice the signed area of a ring of points, as a sum along its sides. A corner that is cut off takes the
area of its triangle with it (`shoelace_corner`), and the other direction has the opposite sign
(`shoelace_reverse`).
-/

namespace Draftboard.Plane

open List

/-- Twice the signed area of a ring, positive if it goes round to the left. -/
def shoelace (l : List (Point ℚ)) : ℚ := ((Ring.sides l).map fun e => area e.1 e.2).sum

theorem shoelace_rotate {l m : List (Point ℚ)} (h : l ~r m) : shoelace l = shoelace m :=
  ((Ring.sides_perm h).map _).sum_eq

theorem turn_eq_area (a b c : Point ℚ) : turn a b c = area a b + area b c + area c a := by
  simp only [turn, area]
  ring

theorem shoelace_three (a b c : Point ℚ) : shoelace [a, b, c] = turn a b c := by
  simp [shoelace, Ring.sides_cons, turn_eq_area, add_assoc]

theorem shoelace_corner (c n : Point ℚ) (l : List (Point ℚ)) (p : Point ℚ) :
    shoelace (c :: n :: (l ++ [p])) = shoelace (n :: (l ++ [p])) + turn p c n := by
  have hback := area_swap p n
  rw [turn_eq_area, shoelace, shoelace, Ring.sides_corner, Ring.sides_without]
  simp only [cons_append, map_cons, map_append, map_nil, sum_cons, sum_append, sum_nil]
  linarith

theorem shoelace_reverse (l : List (Point ℚ)) : shoelace l.reverse = -shoelace l := by
  have hneg : ∀ es : List (Point ℚ × Point ℚ),
      ((es.map Prod.swap).map fun e => area e.1 e.2).sum = -(es.map fun e => area e.1 e.2).sum := by
    intro es
    induction es with
    | nil => simp
    | cons e es ih =>
      simp only [map_cons, sum_cons, ih, Prod.fst_swap, Prod.snd_swap, area_swap e.1 e.2]
      ring
  rw [shoelace, ((Ring.sides_reverse_perm l).map _).sum_eq, hneg, shoelace]

end Draftboard.Plane
