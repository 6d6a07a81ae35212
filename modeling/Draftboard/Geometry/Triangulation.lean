import Draftboard.Geometry.Point

/-!
# Draftboard.Geometry.Triangulation

Cutting a filled polygon into triangles by clipping its ears.

* The corners of the polygon are the indices into its vertex list; a last vertex that repeats
  the first one is not a corner of its own.
* `clipEars` goes round the ring of corners that are left and clips each ear it meets. It takes
  the test for an ear as an argument: how many triangles come out, and that each uses corners of
  the ring, does not depend on what the test says. After a whole round without an ear the next
  corner is clipped all the same, so the ring shrinks to a triangle for every input.
-/

namespace Draftboard

/-- Three indices into the vertices of a polygon. -/
structure Triangle where
  a : Nat
  b : Nat
  c : Nat
deriving DecidableEq, Repr

/-- Why a polygon has no triangles. -/
inductive TriangulationError
  /-- It has fewer than three corners. -/
  | tooFewVertices (count : Nat)
deriving DecidableEq, Repr

def TriangulationError.message : TriangulationError → String
  | .tooFewVertices count => "triangulation needs at least 3 vertices, got " ++ toString count

namespace Triangulation

/-! ### Clipping -/

/-- Clips corners of the ring until three are left. The corner at `cursor` is looked at next,
and the last `misses` corners were no ears. -/
def clipEars (ear : List Nat → Triangle → Bool) (ring : List Nat) (cursor misses : Nat) :
    List Triangle :=
  let size := ring.length
  if h : 3 < size then
    let corner : Triangle :=
      ⟨ring.getD ((cursor + size - 1) % size) 0, ring.getD (cursor % size) 0,
        ring.getD ((cursor + 1) % size) 0⟩
    if hm : size ≤ misses ∨ ear ring corner = true then
      have : (ring.eraseIdx (cursor % size)).length < ring.length := by
        rw [List.length_eraseIdx_of_lt (Nat.mod_lt _ (by omega))]; omega
      corner :: clipEars ear (ring.eraseIdx (cursor % size)) (cursor % (size - 1)) 0
    else clipEars ear ring ((cursor + 1) % size) (misses + 1)
  else [⟨ring.getD 0 0, ring.getD 1 0, ring.getD 2 0⟩]
termination_by (ring.length, ring.length - misses)
decreasing_by
  · exact Prod.Lex.left _ _ this
  · exact Prod.Lex.right _ (by have := hm; omega)

/-! ### Ears -/

variable {α : Type} [Scalar α]

/-- Whether `p` lies inside or on the triangle `abc`, whose corners go round to the left. -/
def contains (a b c p : Point α) : Bool :=
  Scalar.zero ≤ (b - a).cross (p - a) && Scalar.zero ≤ (c - b).cross (p - b) &&
    Scalar.zero ≤ (a - c).cross (p - c)

/-- Whether the corner turns left and no other corner of the ring lies in its triangle. -/
def isEar (vertex : Nat → Point α) (ring : List Nat) (t : Triangle) : Bool :=
  let a := vertex t.a
  let b := vertex t.b
  let c := vertex t.c
  if (b - a).cross (c - b) ≤ Scalar.zero then false
  else ring.all fun i => i == t.a || i == t.b || i == t.c || !contains a b c (vertex i)

/-! ### Polygons -/

/-- The number of corners: a last vertex that repeats the first one does not count. -/
def cornerCount (vertices : List (Point α)) : Nat :=
  match vertices.head?, vertices.getLast? with
  | some first, some last =>
    if 1 < vertices.length ∧ (first == last) = true then vertices.length - 1 else vertices.length
  | _, _ => vertices.length

/-- Twice the signed area of the polygon on the first `count` vertices, positive if they go
round to the left. -/
def doubledArea (vertex : Nat → Point α) (count : Nat) : α :=
  (List.range count).foldl
    (fun sum i => sum + (vertex i).cross (vertex ((i + 1) % count))) Scalar.zero

/-- The corners in the order in which they go round to the left. -/
def orient (vertex : Nat → Point α) (count : Nat) : List Nat :=
  let ring := List.range count
  if doubledArea vertex count < Scalar.zero then ring.reverse else ring

end Triangulation

open Triangulation in
/-- The triangles of a polygon, as indices into its vertices. -/
def triangulate {α : Type} [Scalar α] (vertices : List (Point α)) :
    Except TriangulationError (List Triangle) :=
  let count := cornerCount vertices
  if count < 3 then .error (.tooFewVertices count)
  else
    let table := vertices.toArray
    let vertex i := table.getD i Point.origin
    .ok (clipEars (isEar vertex) (orient vertex count) 0 0)

end Draftboard
