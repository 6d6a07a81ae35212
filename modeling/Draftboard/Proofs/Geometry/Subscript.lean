import Draftboard.Proofs.Geometry.Clipping

/-!
# Draftboard.Proofs.Geometry.Subscript

No subscript of the triangulation is out of range, and no remainder is taken by zero.

The clipping reads its lists with a value for the places that they do not have. Here what a look reads
is written once more so that such a reading fails (`Clipping.corner?`, `isEar?`), and `Clipping.next?` is
the look if none of this fails. So is what comes before the looks and after them (`doubledArea?`,
`Clipping.last?`). On the way from a whole polygon to its last triangle none of them fails, and each gives
what the unchecked one gives (`next?_eq`, `last?_eq`, `doubledArea?_eq`).
-/

namespace Draftboard.Triangulation

variable {α : Type} [Scalar α]

/-! ### The polygon -/

/-- A vertex by its index, as the triangulation reads it. -/
def vertex (vertices : List (Point α)) (i : Nat) : Point α := vertices.toArray.getD i Point.origin

theorem cornerCount_le (vertices : List (Point α)) :
    cornerCount vertices ≤ vertices.length := by
  unfold cornerCount
  split
  · split <;> omega
  · exact le_refl _

theorem cornerCount_concat (first : Point α) (l : List (Point α)) (last : Point α) :
    cornerCount (first :: (l ++ [last])) =
      if (first == last) = true then l.length + 1 else l.length + 2 := by
  have hlast : (first :: (l ++ [last])).getLast? = some last := by
    rw [← List.cons_append, List.getLast?_concat]
  simp [cornerCount, hlast]

theorem getElem?_eq_vertex {vertices : List (Point α)} {i : Nat} (h : i < vertices.length) :
    vertices[i]? = some (vertex vertices i) := by
  simp [vertex, h]

/-- The whole polygon, with its corners in the order in which they go round to the left. -/
def start (vertices : List (Point α)) : Clipping :=
  ⟨orient (vertex vertices) (cornerCount vertices), 0, 0⟩

theorem orient_perm (vertices : List (Point α)) (count : Nat) :
    (orient (vertex vertices) count).Perm (List.range count) := by
  unfold orient
  dsimp only
  split
  · exact List.reverse_perm _
  · rfl

theorem length_orient (vertices : List (Point α)) (count : Nat) :
    (orient (vertex vertices) count).length = count := by
  simpa using (orient_perm vertices count).length_eq

theorem settled_start {vertices : List (Point α)} (h : 3 ≤ cornerCount vertices) :
    (start vertices).Settled := by
  have hlength : (start vertices).ring.length = cornerCount vertices := length_orient _ _
  exact ⟨by omega, by rw [hlength]; simp only [start]; omega⟩

theorem triangulate_of_lt {vertices : List (Point α)} (h : cornerCount vertices < 3) :
    triangulate vertices = .error (.tooFewVertices (cornerCount vertices)) :=
  if_pos h

theorem triangulate_of_le {vertices : List (Point α)} (h : 3 ≤ cornerCount vertices) :
    triangulate vertices = .ok ((start vertices).triangles (isEar (vertex vertices))) :=
  if_neg (by omega)

/-! ### Checked readings -/

/-- A remainder, unless it is by zero. -/
def remainder? (a b : Nat) : Option Nat := if b = 0 then none else some (a % b)

theorem remainder?_eq (a : Nat) {b : Nat} (h : 0 < b) : remainder? a b = some (a % b) :=
  if_neg (by omega)

theorem getElem?_eq_getD {l : List Nat} {i : Nat} (h : i < l.length) : l[i]? = some (l.getD i 0) := by
  simp [h]

/-- What is done with each entry of a list and never fails gives all the results. -/
theorem mapM_eq_some {β γ : Type} {f : β → Option γ} {g : β → γ} {l : List β}
    (h : ∀ a ∈ l, f a = some (g a)) : l.mapM f = some (l.map g) := by
  induction l with
  | nil => rfl
  | cons a l ih =>
    rw [List.mapM_cons, h a (by simp), ih fun b hb => h b (by simp [hb])]
    rfl

namespace Clipping

/-- The corner that is looked at, if it and its neighbours are there. -/
def corner? (s : Clipping) : Option Triangle := do
  let before ← remainder? (s.cursor + s.ring.length - 1) s.ring.length
  let here ← remainder? s.cursor s.ring.length
  let after ← remainder? (s.cursor + 1) s.ring.length
  return ⟨← s.ring[before]?, ← s.ring[here]?, ← s.ring[after]?⟩

/-- The first three corners, if they are there. -/
def last? (s : Clipping) : Option Triangle := do
  return ⟨← s.ring[0]?, ← s.ring[1]?, ← s.ring[2]?⟩

theorem corner?_eq {s : Clipping} (h : s.Settled) : s.corner? = some s.corner := by
  have hpos : 0 < s.ring.length := by have := h.size; omega
  have hread : ∀ i, s.ring[i % s.ring.length]? = some (s.ring.getD (i % s.ring.length) 0) :=
    fun i => getElem?_eq_getD (Nat.mod_lt i hpos)
  simp only [corner?, remainder?_eq _ hpos, hread, Option.bind_eq_bind, Option.bind_some]
  rfl

theorem last?_eq {s : Clipping} (h : s.Settled) : s.last? = some s.last := by
  have hsize := h.size
  simp only [last?, getElem?_eq_getD (show 0 < s.ring.length by omega),
    getElem?_eq_getD (show 1 < s.ring.length by omega),
    getElem?_eq_getD (show 2 < s.ring.length by omega), Option.bind_eq_bind, Option.bind_some]
  rfl

end Clipping

/-- The test for an ear, if the vertices of all corners are there. -/
def isEar? (vertices : List (Point α)) (ring : List Nat) (t : Triangle) : Option Bool := do
  let a ← vertices[t.a]?
  let b ← vertices[t.b]?
  let c ← vertices[t.c]?
  if (b - a).cross (c - b) ≤ Scalar.zero then return false
  let outside ← ring.mapM fun i => do
    let p ← vertices[i]?
    return i == t.a || i == t.b || i == t.c || !contains a b c p
  return outside.all id

theorem isEar?_eq {vertices : List (Point α)} {ring : List Nat} {t : Triangle}
    (hring : ∀ i ∈ ring, i < vertices.length) (ha : t.a ∈ ring) (hb : t.b ∈ ring) (hc : t.c ∈ ring) :
    isEar? vertices ring t = some (isEar (vertex vertices) ring t) := by
  have hread : ∀ i ∈ ring, vertices[i]? = some (vertex vertices i) :=
    fun i hi => getElem?_eq_vertex (hring i hi)
  simp only [isEar?, hread _ ha, hread _ hb, hread _ hc, Option.bind_eq_bind, Option.bind_some,
    isEar]
  split
  · rfl
  · have hall : ∀ i ∈ ring, (vertices[i]?.bind fun p => pure
        (i == t.a || i == t.b || i == t.c || !contains (vertex vertices t.a) (vertex vertices t.b)
          (vertex vertices t.c) p)) =
        some (i == t.a || i == t.b || i == t.c || !contains (vertex vertices t.a)
          (vertex vertices t.b) (vertex vertices t.c) (vertex vertices i)) := by
      intro i hi
      rw [hread i hi]
      rfl
    rw [mapM_eq_some hall]
    simp [List.all_map]

/-- Twice the signed area, if the vertices of all corners are there. -/
def doubledArea? (vertices : List (Point α)) (count : Nat) : Option α := do
  let terms ← (List.range count).mapM fun i => do
    let next ← remainder? (i + 1) count
    return (← vertices[i]?).cross (← vertices[next]?)
  return terms.foldl (· + ·) Scalar.zero

theorem doubledArea?_eq {vertices : List (Point α)} {count : Nat} (h : count ≤ vertices.length) :
    doubledArea? vertices count = some (doubledArea (vertex vertices) count) := by
  have hall : ((List.range count).mapM fun i => do
      let next ← remainder? (i + 1) count
      return (← vertices[i]?).cross (← vertices[next]?)) =
      some ((List.range count).map fun i =>
        (vertex vertices i).cross (vertex vertices ((i + 1) % count))) := by
    refine mapM_eq_some fun i hi => ?_
    have hi := List.mem_range.1 hi
    have hnext := Nat.mod_lt (i + 1) (show 0 < count by omega)
    rw [remainder?_eq _ (by omega), getElem?_eq_vertex (show i < vertices.length by omega)]
    simp only [Option.bind_eq_bind, Option.bind_some]
    rw [getElem?_eq_vertex (show (i + 1) % count < vertices.length by omega)]
    rfl
  rw [doubledArea?, hall]
  simp [doubledArea, List.foldl_map]

/-! ### A look -/

namespace Clipping

/-- One look with a test for ears that may fail, if all that it reads is there. The corner is clipped at the
place where it was read, and the look ends with a remainder by the length of the ring that is left. -/
def next? (test : List Nat → Triangle → Option Bool) (s : Clipping) : Option Clipping := do
  let corner ← s.corner?
  let ear ← test s.ring corner
  let next := s.next fun _ _ => ear
  let _ ← remainder? s.cursor next.ring.length
  return next

theorem Settled.corner_mem {s : Clipping} (h : s.Settled) :
    s.corner.a ∈ s.ring ∧ s.corner.b ∈ s.ring ∧ s.corner.c ∈ s.ring := by
  obtain ⟨c, n, l, p, hring, hcorner, -⟩ := h.exists_around
  simp [hcorner, hring.mem_iff]

theorem next?_eq {test : List Nat → Triangle → Option Bool} {ear : List Nat → Triangle → Bool}
    {s : Clipping} (h : s.Settled) (hs : 3 < s.ring.length)
    (htest : test s.ring s.corner = some (ear s.ring s.corner)) :
    s.next? test = some (s.next ear) := by
  have hsame : s.next (fun _ _ => ear s.ring s.corner) = s.next ear := rfl
  have hsize : 3 ≤ (s.next ear).ring.length := (h.next hs).size
  simp only [next?, corner?_eq h, htest, Option.bind_eq_bind, Option.bind_some, hsame,
    remainder?_eq _ (show 0 < (s.next ear).ring.length by omega)]
  rfl

/-- A look leaves only corners that were there. -/
theorem ring_next_subset {ear : List Nat → Triangle → Bool} (s : Clipping) :
    (s.next ear).ring ⊆ s.ring := by
  by_cases hclips : s.Clips ear
  · rw [next_of_clips hclips]
    exact (List.eraseIdx_sublist ..).subset
  · rw [next_of_not_clips hclips]
    exact List.Subset.refl _

theorem Reaches.ring_subset {ear : List Nat → Triangle → Bool} {s t : Clipping}
    (h : Reaches ear s t) : t.ring ⊆ s.ring := by
  induction h with
  | refl => exact List.Subset.refl _
  | look _ _ ih => exact List.Subset.trans (ring_next_subset _) ih

end Clipping

theorem lt_length_of_reaches {vertices : List (Point α)} {ear : List Nat → Triangle → Bool}
    {s : Clipping} (h : Clipping.Reaches ear (start vertices) s) {i : Nat} (hi : i ∈ s.ring) :
    i < cornerCount vertices :=
  List.mem_range.1 ((orient_perm vertices _).mem_iff.1 (h.ring_subset hi))

end Draftboard.Triangulation
