import Draftboard.Proofs.Geometry.Subscript

/-!
# Draftboard.Proofs.Geometry.Dissection

The triangles of a polygon fit together, whatever is taken for an ear.

* Triangles dissect a ring (`Dissects`) if their directed edges are all different, each side of the
  ring is the edge of one of them with nothing on its other side, and each other edge is shared by
  two of them in opposite directions.
* Three corners dissect themselves (`dissects_last`). To the dissection of a ring the triangle on one of
  its sides can be added, with a new corner (`Dissects.clip`): that side is then an inner edge. So what
  the clipping of a ring gives dissects it, by induction along the looks (`dissects_triangles`).
-/

namespace Draftboard

open List

/-- The directed edges of a triangle. -/
def Triangle.edges (t : Triangle) : List (Nat × Nat) := [(t.a, t.b), (t.b, t.c), (t.c, t.a)]

namespace Triangulation

/-- The directed edges of triangles. -/
def edges (triangles : List Triangle) : List (Nat × Nat) := triangles.flatMap Triangle.edges

@[simp] theorem edges_cons (t : Triangle) (triangles : List Triangle) :
    edges (t :: triangles) = t.edges ++ edges triangles := flatMap_cons

/-- Triangles that make up a ring. -/
structure Dissects (triangles : List Triangle) (ring : List Nat) : Prop where
  length : triangles.length = ring.length - 2
  corners : ∀ t ∈ triangles, (t.a ∈ ring ∧ t.b ∈ ring ∧ t.c ∈ ring) ∧
    t.a ≠ t.b ∧ t.b ≠ t.c ∧ t.c ≠ t.a
  /-- No edge belongs to two triangles. -/
  nodup : (edges triangles).Nodup
  /-- A side of the ring is an edge, with no triangle on its other side. -/
  side : ∀ e ∈ Ring.sides ring, e ∈ edges triangles ∧ e.swap ∉ edges triangles
  /-- Any other edge has a triangle on either side. -/
  inner : ∀ e ∈ edges triangles, e ∉ Ring.sides ring → e.swap ∈ edges triangles

variable {triangles : List Triangle} {ring : List Nat}

/-- Where the ring starts does not matter. -/
theorem Dissects.rotate {ring' : List Nat} (h : Dissects triangles ring) (hring : ring ~r ring') :
    Dissects triangles ring' where
  length := hring.perm.length_eq ▸ h.length
  corners t ht := by
    simp only [← hring.mem_iff]
    exact h.corners t ht
  nodup := h.nodup
  side e he := h.side e ((Ring.mem_sides_iff hring).2 he)
  inner e he hside := h.inner e he fun hmem => hside ((Ring.mem_sides_iff hring).1 hmem)

/-- Edges lead from corners of the ring to corners of the ring. -/
theorem Dissects.mem_of_mem_edges (h : Dissects triangles ring) {e : Nat × Nat}
    (he : e ∈ edges triangles) : e.1 ∈ ring ∧ e.2 ∈ ring := by
  obtain ⟨t, ht, he⟩ := mem_flatMap.1 he
  obtain ⟨⟨ha, hb, hc⟩, -⟩ := h.corners t ht
  simp only [Triangle.edges, mem_cons, not_mem_nil, or_false] at he
  rcases he with rfl | rfl | rfl
  · exact ⟨ha, hb⟩
  · exact ⟨hb, hc⟩
  · exact ⟨hc, ha⟩

theorem dissects_last {a b c : Nat} (h : [a, b, c].Nodup) : Dissects [⟨a, b, c⟩] [a, b, c] := by
  simp only [nodup_cons, mem_cons, not_mem_nil, or_false, not_or, not_false_eq_true, nodup_nil,
    and_true] at h
  obtain ⟨⟨hab, hac⟩, hbc⟩ := h
  refine ⟨rfl, ?_, ?_, ?_, ?_⟩
  · simp [hab, hbc, Ne.symm hac]
  · simp [edges, Triangle.edges, hab, hac, hbc, Ne.symm hab, Ne.symm hac]
  · simp [edges, Triangle.edges, Ring.sides_cons, Prod.swap_prod_mk, hab, hac, hbc, Ne.symm hab, Ne.symm hac,
      Ne.symm hbc]
  · intro e he hside
    exact absurd he hside

/-- The edges with a triangle on the side from `p` to `n`, whose third corner is `c`. -/
theorem mem_edges_clip {c n p : Nat} {e : Nat × Nat} :
    e ∈ edges (⟨p, c, n⟩ :: triangles) ↔
      e = (p, c) ∨ e = (c, n) ∨ e = (n, p) ∨ e ∈ edges triangles := by
  simp [Triangle.edges]

/-- A triangle is added on the side from `p` to `n`, with the new corner `c`. -/
theorem Dissects.clip {c n p : Nat} {l : List Nat} (h : Dissects triangles (n :: (l ++ [p])))
    (hnodup : (c :: n :: (l ++ [p])).Nodup) :
    Dissects (⟨p, c, n⟩ :: triangles) (c :: n :: (l ++ [p])) := by
  obtain ⟨hc, hrest⟩ := nodup_cons.1 hnodup
  have hcn : c ≠ n := fun heq => hc (by simp [heq])
  have hcp : c ≠ p := fun heq => hc (by simp [heq])
  have hnp : n ≠ p := fun heq => (nodup_cons.1 hrest).1 (by simp [heq])
  -- no edge so far has the new corner for an end
  have hfst : ∀ e ∈ edges triangles, e.1 ≠ c := fun e he heq => hc (heq ▸ (h.mem_of_mem_edges he).1)
  have hsnd : ∀ e ∈ edges triangles, e.2 ≠ c := fun e he heq => hc (heq ▸ (h.mem_of_mem_edges he).2)
  -- the side that the triangle is added to is no step of the rest
  obtain ⟨hside, hback⟩ := h.side (p, n) (Ring.mem_sides_without.2 (.inl rfl))
  have hwalk : ∀ e ∈ Ring.walk (n :: (l ++ [p])), e ≠ (p, n) := by
    intro e he
    have htwice := Ring.nodup_sides hrest
    rw [Ring.sides_without, nodup_append] at htwice
    exact htwice.2.2 e he (p, n) (mem_singleton_self _)
  refine ⟨?_, ?_, ?_, ?_, ?_⟩
  · have hlength := h.length
    simp only [length_cons, length_append, length_nil] at hlength ⊢
    omega
  · intro t ht
    rcases mem_cons.1 ht with rfl | ht
    · simp [Ne.symm hcp, hcn, hnp]
    · obtain ⟨⟨ha, hb, hc⟩, hne⟩ := h.corners t ht
      exact ⟨⟨mem_cons_of_mem _ ha, mem_cons_of_mem _ hb, mem_cons_of_mem _ hc⟩, hne⟩
  · have hpc : (p, c) ∉ edges triangles := fun he => hsnd _ he rfl
    have hcn' : (c, n) ∉ edges triangles := fun he => hfst _ he rfl
    have hnp' : (n, p) ∉ edges triangles := hback
    simp [Triangle.edges, h.nodup, hpc, hcn', hnp', Ne.symm hcp, hcn, Ne.symm hnp]
  · intro e he
    rcases Ring.mem_sides_corner.1 he with rfl | rfl | he
    · refine ⟨mem_edges_clip.2 (.inl rfl), fun hswap => ?_⟩
      rcases mem_edges_clip.1 hswap with heq | heq | heq | hmem
      · simp [hcp] at heq
      · simp [Ne.symm hnp] at heq
      · simp [hcn] at heq
      · exact hfst _ hmem rfl
    · refine ⟨mem_edges_clip.2 (.inr (.inl rfl)), fun hswap => ?_⟩
      rcases mem_edges_clip.1 hswap with heq | heq | heq | hmem
      · simp [hnp] at heq
      · simp [Ne.symm hcn] at heq
      · simp [hcp] at heq
      · exact hsnd _ hmem rfl
    · obtain ⟨hedge, hswap⟩ := h.side e (Ring.mem_sides_without.2 (.inr he))
      refine ⟨mem_edges_clip.2 (.inr (.inr (.inr hedge))), fun hswap' => ?_⟩
      rcases mem_edges_clip.1 hswap' with heq | heq | heq | hmem
      · exact hfst e hedge (congrArg Prod.snd heq)
      · exact hsnd e hedge (congrArg Prod.fst heq)
      · exact hwalk e he (by rw [← Prod.swap_swap e, heq, Prod.swap_prod_mk])
      · exact hswap hmem
  · intro e he hout
    rw [Ring.mem_sides_corner, not_or, not_or] at hout
    rcases mem_edges_clip.1 he with rfl | rfl | rfl | he
    · exact absurd rfl hout.1
    · exact absurd rfl hout.2.1
    · exact mem_edges_clip.2 (.inr (.inr (.inr hside)))
    · by_cases hpn : e = (p, n)
      · exact mem_edges_clip.2 (.inr (.inr (.inl (by rw [hpn, Prod.swap_prod_mk]))))
      · have hinner := h.inner e he fun hmem => by
          rcases Ring.mem_sides_without.1 hmem with heq | hmem
          · exact hpn heq
          · exact hout.2.2 hmem
        exact mem_edges_clip.2 (.inr (.inr (.inr hinner)))

/-- What clipping gives dissects the ring. -/
theorem Clipping.dissects_triangles (ear : List Nat → Triangle → Bool) {s : Clipping}
    (h : s.Settled) (hnodup : s.ring.Nodup) : Dissects (s.triangles ear) s.ring := by
  induction s using Clipping.induct ear with
  | last s hs =>
    obtain ⟨c, n, l, p, hring⟩ := Ring.exists_corner h.size
    have hl : l = [] := by
      have hlength := congrArg List.length hring
      simp only [length_cons, length_append, length_nil] at hlength
      exact length_eq_zero_iff.1 (by omega)
    subst hl
    rw [Clipping.triangles_of_le hs, Clipping.last]
    rw [hring] at hnodup ⊢
    exact dissects_last hnodup
  | look s hs ih =>
    by_cases hclips : s.Clips ear
    · obtain ⟨c, n, l, p, hring, hcorner, herase⟩ := h.exists_around
      have hnodup' : (c :: n :: (l ++ [p])).Nodup := hring.nodup_iff.1 hnodup
      have hnext : (s.next ear).ring ~r n :: (l ++ [p]) := by
        rw [Clipping.next_of_clips hclips]
        exact herase
      have hih := ih (h.next hs) (hnext.nodup_iff.2 (nodup_cons.1 hnodup').2)
      rw [Clipping.triangles_of_clips hs hclips, hcorner]
      exact ((hih.rotate hnext).clip hnodup').rotate hring.symm
    · have hih := ih (h.next hs)
      rw [Clipping.next_of_not_clips hclips] at hih
      rw [Clipping.triangles_of_not_clips hs hclips, Clipping.next_of_not_clips hclips]
      exact hih hnodup

/-! ### Polygons -/

variable {α : Type} [Scalar α]

theorem orient_eq (vertices : List (Point α)) (count : Nat) :
    orient (vertex vertices) count = range count ∨
      orient (vertex vertices) count = (range count).reverse := by
  unfold orient
  dsimp only
  split
  · exact .inr rfl
  · exact .inl rfl

/-- The triangles of a polygon are made of its vertices. -/
theorem lt_length_of_mem_triangulate {vertices : List (Point α)} {triangles : List Triangle}
    (h : triangulate vertices = .ok triangles) {t : Triangle} (ht : t ∈ triangles) :
    t.a < vertices.length ∧ t.b < vertices.length ∧ t.c < vertices.length := by
  by_cases hcount : cornerCount vertices < 3
  · rw [triangulate_of_lt hcount] at h
    cases h
  rw [triangulate_of_le (by omega)] at h
  obtain rfl := Except.ok.inj h
  have hperm := orient_perm vertices (cornerCount vertices)
  have hdissects := Clipping.dissects_triangles (isEar (vertex vertices)) (settled_start (by omega))
    (hperm.nodup_iff.2 nodup_range)
  have hlt : ∀ i ∈ (start vertices).ring, i < vertices.length := fun i hi =>
    (mem_range.1 (hperm.mem_iff.1 hi)).trans_le (cornerCount_le vertices)
  obtain ⟨⟨ha, hb, hc⟩, -⟩ := hdissects.corners t ht
  exact ⟨hlt _ ha, hlt _ hb, hlt _ hc⟩

/-- A polygon of fewer than three corners has no triangles. Any other one is dissected, in one of the
two directions in which its corners can be gone round. With any other outcomes of the test for ears it
would be dissected as well: the looks end, and on the way to the end nothing is read that is not
there. -/
theorem triangulate_dissects (vertices : List (Point α)) :
    (∀ e, triangulate vertices = .error e ↔
      cornerCount vertices < 3 ∧ e = .tooFewVertices (cornerCount vertices)) ∧
    (3 ≤ cornerCount vertices →
      (∃ triangles, triangulate vertices = .ok triangles ∧
        triangles.length = cornerCount vertices - 2 ∧
        (∀ t ∈ triangles, t.a < cornerCount vertices ∧ t.b < cornerCount vertices ∧
          t.c < cornerCount vertices ∧ t.a ≠ t.b ∧ t.b ≠ t.c ∧ t.c ≠ t.a) ∧
        Dissects triangles (start vertices).ring) ∧
      ((start vertices).ring = range (cornerCount vertices) ∨
        (start vertices).ring = (range (cornerCount vertices)).reverse) ∧
      (∀ ear ring, ring = range (cornerCount vertices) ∨ ring = (range (cornerCount vertices)).reverse →
        Dissects (clipEars ear ring 0 0) ring) ∧
      doubledArea? vertices (cornerCount vertices) =
        some (doubledArea (vertex vertices) (cornerCount vertices)) ∧
      ∀ ear, (∃ s, Clipping.Reaches ear (start vertices) s ∧ s.ring.length = 3) ∧
        ∀ s, Clipping.Reaches ear (start vertices) s →
          isEar? vertices s.ring s.corner = some (isEar (vertex vertices) s.ring s.corner) ∧
          (3 < s.ring.length → ∀ test, test s.ring s.corner = some (ear s.ring s.corner) →
            s.next? test = some (s.next ear)) ∧
          (s.ring.length ≤ 3 → s.last? = some s.last)) := by
  constructor
  · intro e
    by_cases hcount : cornerCount vertices < 3
    · rw [triangulate_of_lt hcount]
      simp [hcount, eq_comm]
    · rw [triangulate_of_le (by omega)]
      simp [hcount]
  · intro hcount
    have hle := cornerCount_le vertices
    have hdissects : ∀ ear ring,
        ring = range (cornerCount vertices) ∨ ring = (range (cornerCount vertices)).reverse →
          Dissects (clipEars ear ring 0 0) ring := by
      intro ear ring hring
      have hperm : ring.Perm (range (cornerCount vertices)) := by
        rcases hring with rfl | rfl
        · rfl
        · exact reverse_perm _
      have hlength : ring.length = cornerCount vertices := by simpa using hperm.length_eq
      have hsettled : (⟨ring, 0, 0⟩ : Clipping).Settled := ⟨by simp only; omega, by simp only; omega⟩
      exact Clipping.dissects_triangles ear hsettled (hperm.nodup_iff.2 nodup_range)
    have hring := orient_eq vertices (cornerCount vertices)
    have hall := hdissects (isEar (vertex vertices)) _ hring
    refine ⟨⟨_, triangulate_of_le hcount, ?_, ?_, hall⟩, hring, hdissects, doubledArea?_eq hle,
      fun ear => ⟨(settled_start hcount).exists_reaches_three, fun s hs => ?_⟩⟩
    · exact hall.length.trans (by rw [length_orient])
    · intro t ht
      obtain ⟨⟨ha, hb, hc⟩, hne⟩ := hall.corners t ht
      have hlt : ∀ i ∈ orient (vertex vertices) (cornerCount vertices), i < cornerCount vertices :=
        fun i hi => mem_range.1 ((orient_perm vertices _).mem_iff.1 hi)
      exact ⟨hlt _ ha, hlt _ hb, hlt _ hc, hne⟩
    · have hsettled := hs.settled (settled_start hcount)
      obtain ⟨ha, hb, hc⟩ := hsettled.corner_mem
      exact ⟨isEar?_eq (fun i hi => (lt_length_of_reaches hs hi).trans_le hle) ha hb hc,
        fun hlength test htest => Clipping.next?_eq hsettled hlength htest,
        fun _ => Clipping.last?_eq hsettled⟩

end Triangulation

end Draftboard
