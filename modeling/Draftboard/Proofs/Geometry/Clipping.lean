import Mathlib.Data.List.GetD
import Draftboard.Geometry.Triangulation
import Draftboard.Proofs.Geometry.Ring

/-!
# Draftboard.Proofs.Geometry.Clipping

The clipping of ears, one look at a time.

* A `Clipping` is where the loop stands: the ring that is left, the place that is looked at next, and
  how many places in a row were no ears. `next` is one look, and `Reaches` the places that looks lead
  to. They go on as long as more than three corners are left.
* What comes out is said by three equations, one for each thing that a look can do
  (`triangles_of_clips`, `triangles_of_not_clips`, `triangles_of_le`), and `induct` follows the looks
  to their end. The triangles are the corners that are clipped and the ring at the end
  (`mem_triangles_iff`).
* Turned so that the corner that is looked at comes first, the ring is `c :: n :: (l ++ [p])`, the
  triangle is `⟨p, c, n⟩`, and clipping it leaves `n :: (l ++ [p])` (`Settled.exists_around`).
-/

namespace Draftboard.Triangulation

/-- Where the clipping of a ring stands. -/
structure Clipping where
  ring : List Nat
  cursor : Nat := 0
  misses : Nat := 0

namespace Clipping

/-- The corner that is looked at. -/
def corner (s : Clipping) : Triangle :=
  ⟨s.ring.getD ((s.cursor + s.ring.length - 1) % s.ring.length) 0,
    s.ring.getD (s.cursor % s.ring.length) 0, s.ring.getD ((s.cursor + 1) % s.ring.length) 0⟩

/-- What is left when nothing more is clipped. -/
def last (s : Clipping) : Triangle := ⟨s.ring.getD 0 0, s.ring.getD 1 0, s.ring.getD 2 0⟩

variable (ear : List Nat → Triangle → Bool)

/-- The corner is clipped: it is an ear, or a whole round has found none. -/
def Clips (s : Clipping) : Prop := s.ring.length ≤ s.misses ∨ ear s.ring s.corner = true

instance (s : Clipping) : Decidable (s.Clips ear) := inferInstanceAs (Decidable (_ ∨ _))

/-- One look. -/
def next (s : Clipping) : Clipping :=
  if s.Clips ear then
    ⟨s.ring.eraseIdx (s.cursor % s.ring.length), s.cursor % (s.ring.length - 1), 0⟩
  else ⟨s.ring, (s.cursor + 1) % s.ring.length, s.misses + 1⟩

/-- The triangles from here on. -/
def triangles (s : Clipping) : List Triangle := clipEars ear s.ring s.cursor s.misses

/-- Where looks lead to. -/
inductive Reaches : Clipping → Clipping → Prop
  | refl (s : Clipping) : Reaches s s
  | look {s t : Clipping} (h : Reaches s t) (ht : 3 < t.ring.length) : Reaches s (t.next ear)

variable {ear} {s t : Clipping}

/-! ### What a look does -/

theorem next_of_clips (h : s.Clips ear) : s.next ear =
    ⟨s.ring.eraseIdx (s.cursor % s.ring.length), s.cursor % (s.ring.length - 1), 0⟩ :=
  if_pos h

theorem next_of_not_clips (h : ¬ s.Clips ear) :
    s.next ear = ⟨s.ring, (s.cursor + 1) % s.ring.length, s.misses + 1⟩ :=
  if_neg h

theorem triangles_of_clips (hs : 3 < s.ring.length) (h : s.Clips ear) :
    s.triangles ear = s.corner :: (s.next ear).triangles ear := by
  have h' : s.ring.length ≤ s.misses ∨ ear s.ring
      ⟨s.ring.getD ((s.cursor + s.ring.length - 1) % s.ring.length) 0,
        s.ring.getD (s.cursor % s.ring.length) 0,
        s.ring.getD ((s.cursor + 1) % s.ring.length) 0⟩ = true := h
  rw [next_of_clips h, triangles, clipEars, dif_pos hs, dif_pos h']
  rfl

theorem triangles_of_not_clips (hs : 3 < s.ring.length) (h : ¬ s.Clips ear) :
    s.triangles ear = (s.next ear).triangles ear := by
  have h' : ¬ (s.ring.length ≤ s.misses ∨ ear s.ring
      ⟨s.ring.getD ((s.cursor + s.ring.length - 1) % s.ring.length) 0,
        s.ring.getD (s.cursor % s.ring.length) 0,
        s.ring.getD ((s.cursor + 1) % s.ring.length) 0⟩ = true) := h
  rw [next_of_not_clips h, triangles, clipEars, dif_pos hs, dif_neg h']
  rfl

theorem triangles_of_le (hs : s.ring.length ≤ 3) : s.triangles ear = [s.last] := by
  rw [triangles, clipEars, dif_neg (by omega)]
  rfl

/-- A look brings the end nearer: a corner less, or a miss more on the way to the round that is
clipped without an ear. -/
theorem next_lt (ear : List Nat → Triangle → Bool) (hs : 3 < s.ring.length) :
    (s.next ear).ring.length < s.ring.length ∨
      (s.next ear).ring = s.ring ∧
        s.ring.length - (s.next ear).misses < s.ring.length - s.misses := by
  by_cases h : s.Clips ear
  · rw [next_of_clips h, List.length_eraseIdx_of_lt (Nat.mod_lt _ (by omega))]
    exact .inl (by omega)
  · rw [next_of_not_clips h]
    have hmisses : s.misses < s.ring.length := by
      by_contra hlt
      exact h (.inl (by omega))
    exact .inr ⟨rfl, by simp only; omega⟩

/-- Induction along the looks. -/
theorem induct (ear : List Nat → Triangle → Bool) {motive : Clipping → Prop} (last : ∀ s, s.ring.length ≤ 3 → motive s)
    (look : ∀ s, 3 < s.ring.length → motive (s.next ear) → motive s) (s : Clipping) : motive s := by
  by_cases hs : 3 < s.ring.length
  · exact look s hs (induct ear last look (s.next ear))
  · exact last s (by omega)
termination_by (s.ring.length, s.ring.length - s.misses)
decreasing_by
  rcases next_lt ear hs with hlt | ⟨hring, hlt⟩
  · exact Prod.Lex.left _ _ hlt
  · rw [hring]
    exact Prod.Lex.right _ hlt

/-! ### Where looks lead to -/

theorem Reaches.trans {u : Clipping} (h : Reaches ear s t) (h' : Reaches ear t u) :
    Reaches ear s u := by
  induction h' with
  | refl => exact h
  | look _ ht ih => exact ih.look ht

theorem Reaches.of_next (hs : 3 < s.ring.length) (h : Reaches ear (s.next ear) t) :
    Reaches ear s t :=
  ((Reaches.refl s).look hs).trans h

/-- A triangle is a corner that is clipped, or what is left at the end. -/
theorem exists_of_mem_triangles {t : Triangle} (h : t ∈ s.triangles ear) :
    (∃ u, Reaches ear s u ∧ 3 < u.ring.length ∧ u.Clips ear ∧ t = u.corner) ∨
      ∃ u, Reaches ear s u ∧ u.ring.length ≤ 3 ∧ t = u.last := by
  induction s using induct ear with
  | last s hs =>
    rw [triangles_of_le hs, List.mem_singleton] at h
    exact .inr ⟨s, .refl s, hs, h⟩
  | look s hs ih =>
    have hnext : t ∈ (s.next ear).triangles ear →
        (∃ u, Reaches ear s u ∧ 3 < u.ring.length ∧ u.Clips ear ∧ t = u.corner) ∨
          ∃ u, Reaches ear s u ∧ u.ring.length ≤ 3 ∧ t = u.last := by
      intro ht
      rcases ih ht with ⟨u, hu, hu'⟩ | ⟨u, hu, hu'⟩
      · exact .inl ⟨u, hu.of_next hs, hu'⟩
      · exact .inr ⟨u, hu.of_next hs, hu'⟩
    by_cases hclips : s.Clips ear
    · rw [triangles_of_clips hs hclips, List.mem_cons] at h
      rcases h with rfl | h
      · exact .inl ⟨s, .refl s, hs, hclips, rfl⟩
      · exact hnext h
    · rw [triangles_of_not_clips hs hclips] at h
      exact hnext h

theorem Reaches.triangles_subset (h : Reaches ear s t) : t.triangles ear ⊆ s.triangles ear := by
  induction h with
  | refl => exact List.Subset.refl _
  | @look u _ hu ih =>
    refine List.Subset.trans ?_ ih
    by_cases hclips : u.Clips ear
    · rw [triangles_of_clips hu hclips]
      exact List.subset_cons_self _ _
    · rw [triangles_of_not_clips hu hclips]
      exact List.Subset.refl _

/-- The triangles are the corners that are clipped on the way, and what is left at the end. -/
theorem mem_triangles_iff {t : Triangle} : t ∈ s.triangles ear ↔ ∃ u, Reaches ear s u ∧
    (3 < u.ring.length ∧ u.Clips ear ∧ t = u.corner ∨ u.ring.length ≤ 3 ∧ t = u.last) := by
  constructor
  · intro h
    rcases exists_of_mem_triangles h with ⟨u, hu, hclipped⟩ | ⟨u, hu, hlast⟩
    · exact ⟨u, hu, .inl hclipped⟩
    · exact ⟨u, hu, .inr hlast⟩
  · intro ⟨u, hu, hcorner⟩
    refine hu.triangles_subset ?_
    rcases hcorner with ⟨hsize, hclips, rfl⟩ | ⟨hsize, rfl⟩
    · rw [triangles_of_clips hsize hclips]
      exact List.mem_cons_self
    · rw [triangles_of_le hsize]
      exact List.mem_singleton.2 rfl

/-! ### Places in the ring -/

/-- At least three corners are left, and one of them is looked at. -/
structure Settled (s : Clipping) : Prop where
  size : 3 ≤ s.ring.length
  cursor : s.cursor < s.ring.length

theorem Settled.next (h : s.Settled) (hs : 3 < s.ring.length) : (s.next ear).Settled := by
  by_cases hclips : s.Clips ear
  · rw [next_of_clips hclips]
    have hlength := List.length_eraseIdx_of_lt (l := s.ring) (Nat.mod_lt s.cursor (by omega))
    exact ⟨by simp only; omega, by simp only [hlength]; exact Nat.mod_lt _ (by omega)⟩
  · rw [next_of_not_clips hclips]
    exact ⟨h.size, Nat.mod_lt _ (by omega)⟩

theorem Reaches.settled (h : Reaches ear s t) (hs : s.Settled) : t.Settled := by
  induction h with
  | refl => exact hs
  | look _ ht ih => exact ih.next ht

/-- Looks come to an end. -/
theorem Settled.exists_reaches_three (h : s.Settled) :
    ∃ t, Reaches ear s t ∧ t.ring.length = 3 := by
  induction s using induct ear with
  | last s hs => exact ⟨s, .refl s, by have := h.size; omega⟩
  | look s hs ih =>
    obtain ⟨t, ht, hthree⟩ := ih (h.next hs)
    exact ⟨t, ht.of_next hs, hthree⟩

/-- The corner that is looked at stands between its two neighbours, and the others follow. -/
theorem Settled.exists_around (h : s.Settled) :
    ∃ c n l p, s.ring ~r c :: n :: (l ++ [p]) ∧ s.corner = ⟨p, c, n⟩ ∧
      s.ring.eraseIdx (s.cursor % s.ring.length) ~r n :: (l ++ [p]) := by
  have hsize := h.size
  have hcursor := h.cursor
  obtain ⟨c, n, l, p, hturned⟩ := Ring.exists_corner (l := s.ring.rotate s.cursor) (by simpa)
  have hat : ∀ i, i < s.ring.length →
      s.ring.getD ((s.cursor + i) % s.ring.length) 0 = (c :: n :: (l ++ [p])).getD i 0 := by
    intro i hi
    rw [← hturned, List.getD_eq_getElem _ _ (Nat.mod_lt _ (by omega)),
      List.getD_eq_getElem _ _ (by simpa using hi), List.getElem_rotate, Nat.add_comm]
  have hlength : s.ring.length = l.length + 3 := by
    have := congrArg List.length hturned
    simpa using this
  refine ⟨c, n, l, p, hturned ▸ List.IsRotated.forall s.ring s.cursor |>.symm, ?_, ?_⟩
  · have hp := hat (l.length + 2) (by omega)
    have hc := hat 0 (by omega)
    have hn := hat 1 (by omega)
    rw [show s.cursor + (l.length + 2) = s.cursor + s.ring.length - 1 by omega] at hp
    rw [Nat.add_zero] at hc
    rw [corner, hp, hc, hn]
    simp
  · rw [Nat.mod_eq_of_lt hcursor, List.eraseIdx_eq_take_drop_succ]
    rw [List.rotate_eq_drop_append_take (by omega), List.drop_eq_getElem_cons hcursor,
      List.cons_append] at hturned
    rw [← (List.cons.inj hturned).2]
    exact List.isRotated_append

end Clipping

end Draftboard.Triangulation
