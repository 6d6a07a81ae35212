import Draftboard.Proofs.Geometry.Ear
import Draftboard.Proofs.Geometry.Shoelace

/-!
# Draftboard.Proofs.Geometry.TwoEars

Every simple ring has an ear.

* An extreme corner is an ear, or else a chord leads from it to another corner without meeting a side:
  to the one in its triangle that is farthest from the base (`Simple.exists_cut`). The chord cuts the
  ring in two (`Cut`).
* A corner of one part lies outside of the other part (`Cut.winding_eq_zero`), so an ear of a part that
  is off the chord is an ear of the whole ring (`Cut.ear`).
* By induction on the length there is an ear off any given side (`Simple.exists_ear`): without an
  extreme ear, off the base that takes its place (`Ear.of_without`), and in the part that the side does
  not belong to, off the chord.
* Clipping ears to the end shows that a simple ring with the inside on its left has positive area, so
  the area tells the direction of a simple ring (`Simple.leftward_of_shoelace_nonneg`).
-/

namespace Draftboard.Plane

open List

variable {a b n p v w x y z : Point ℚ} {k l l' m m' r s : List (Point ℚ)} {e f g : Point ℚ × Point ℚ}

/-! ### A ring that is cut in two -/

/-- A chord between the corners `v` and `w` cuts the ring `l` into `m` and `m'`. -/
structure Cut (l m m' : List (Point ℚ)) (v w : Point ℚ) : Prop where
  whole : Simple l
  first : Simple m
  second : Simple m'
  chord : (w, v) ∈ Ring.sides m
  chord' : (v, w) ∈ Ring.sides m'
  sides : ∀ e ∈ Ring.sides l, e ∈ Ring.sides m ∨ e ∈ Ring.sides m'
  of_first : ∀ e ∈ Ring.sides m, e ≠ (w, v) → e ∈ Ring.sides l
  of_second : ∀ e ∈ Ring.sides m', e ≠ (v, w) → e ∈ Ring.sides l
  common : ∀ y ∈ m, y ∈ m' → y = v ∨ y = w
  winding : ∀ q, winding l q = winding m q + winding m' q

namespace Cut

theorem symm (h : Cut l m m' v w) : Cut l m' m w v where
  whole := h.whole
  first := h.second
  second := h.first
  chord := h.chord'
  chord' := h.chord
  sides e he := (h.sides e he).symm
  of_first := h.of_second
  of_second := h.of_first
  common y hy hy' := (h.common y hy' hy).symm
  winding q := by rw [h.winding, add_comm]

theorem rotate (h : Cut l m m' v w) (hl : l ~r l') : Cut l' m m' v w where
  whole := h.whole.rotate hl
  first := h.first
  second := h.second
  chord := h.chord
  chord' := h.chord'
  sides e he := h.sides e ((Ring.mem_sides_iff hl).2 he)
  of_first e he hne := (Ring.mem_sides_iff hl).1 (h.of_first e he hne)
  of_second e he hne := (Ring.mem_sides_iff hl).1 (h.of_second e he hne)
  common := h.common
  winding q := by rw [← winding_rotate hl, h.winding]

/-- A side of the second part that starts off the chord meets the first part nowhere before its end. -/
theorem not_mem_of_second (h : Cut l m m' v w) (he : e ∈ Ring.sides m') (hv : e.1 ≠ v) (hw : e.1 ≠ w)
    (hz : z ∈ segment e.1 e.2) (hne : z ≠ e.2) (hf : f ∈ Ring.sides m) : z ∉ segment f.1 f.2 := by
  intro hzf
  have hm : e.1 ∉ m := by
    intro hm
    rcases h.common _ hm (Ring.fst_mem_of_mem_sides he) with heq | heq
    · exact hv heq
    · exact hw heq
  by_cases hchord : f = (w, v)
  · subst hchord
    obtain ⟨hend, hend'⟩ := h.second.meets e he (v, w) h.chord' (fun heq => hv (congrArg Prod.fst heq)) z
      hz (segment_symm hzf)
    rw [hend.resolve_right hne] at hend'
    rcases hend' with heq | heq
    · exact hv heq
    · exact hw heq
  · obtain ⟨hend, hend'⟩ := h.whole.meets e (h.of_second e he fun heq => hv (congrArg Prod.fst heq)) f
      (h.of_first f hf hchord) (fun heq => hm (heq ▸ Ring.fst_mem_of_mem_sides hf)) z hz hzf
    rw [hend.resolve_right hne] at hend'
    rcases hend' with heq | heq
    · exact hm (heq ▸ Ring.fst_mem_of_mem_sides hf)
    · exact hm (heq ▸ Ring.snd_mem_of_mem_sides hf)

/-- The first part does not go round the other corners of the second one. -/
theorem winding_eq_zero (h : Cut l m m' v w) (hl : Leftward l) (hm' : Leftward m') (hy : y ∈ m')
    (hv : y ≠ v) (hw : y ≠ w) : (∀ f ∈ Ring.sides m, y ∉ segment f.1 f.2) ∧ Plane.winding m y = 0 := by
  obtain ⟨n, hn⟩ := Ring.exists_mem_sides hy
  have hn' := h.of_second _ hn fun heq => hv (congrArg Prod.fst heq)
  have hyn := h.second.fst_ne_snd hn
  have hclear : ∀ z ∈ segment y n, z ≠ n → ∀ f ∈ Ring.sides m, z ∉ segment f.1 f.2 :=
    fun z hz hne f hf => h.not_mem_of_second hn hv hw hz hne hf
  refine ⟨hclear y (left_mem_segment y n) hyn, ?_⟩
  -- a point that sees the side that starts here, in the ring and in the second part
  obtain ⟨c, hc⟩ := exists_turn_pos hyn
  obtain ⟨t₁, ht₁, -, h₁⟩ := h.whole.exists_sees hn' (show (0 : ℚ) < 1 / 2 by norm_num) (by norm_num) c
  obtain ⟨t₂, ht₂, -, h₂⟩ := h.second.exists_sees hn (show (0 : ℚ) < 1 / 2 by norm_num) (by norm_num) c
  have ht : 0 < min t₁ t₂ := lt_min ht₁ ht₂
  have hsees := h₁ _ ht.le (min_le_left _ _)
  have hsees' := h₂ _ ht.le (min_le_right _ _)
  have hleft : 0 < turn y n (lerp (lerp y n (1 / 2)) c (min t₁ t₂)) := by
    have hmid : turn y n (lerp y n (1 / 2)) = 0 := hsees.turn_mid
    rw [turn_lerp, hmid]
    linarith [mul_pos ht hc]
  have hone := (hl _ hn' _ _ hsees).1 hleft
  have hone' := (hm' _ hn _ _ hsees').1 hleft
  have hsum := h.winding (lerp (lerp y n (1 / 2)) c (min t₁ t₂))
  -- from the corner along the side, then to that point
  have halong : ∀ f ∈ Ring.sides m, Apart y (lerp y n (1 / 2)) f.1 f.2 := by
    rintro f hf _ ⟨r, hr0, hr1, rfl⟩
    rw [lerp_lerp_left]
    refine hclear _ ⟨_, by linarith, by linarith, rfl⟩ (fun heq => ?_) f hf
    have hr := lerp_injective hyn (heq.trans (lerp_one y n).symm)
    linarith
  have haway : ∀ f ∈ Ring.sides m, Apart (lerp y n (1 / 2)) (lerp (lerp y n (1 / 2)) c (min t₁ t₂))
      f.1 f.2 := by
    intro f hf
    by_cases hchord : f = (w, v)
    · subst hchord
      intro z hz hzf
      exact hsees'.clear _ h.chord' (fun heq => hv (congrArg Prod.fst heq).symm) z hz (segment_symm hzf)
    · refine hsees.clear f (h.of_first f hf hchord) ?_
      rintro rfl
      exact hclear y (left_mem_segment y n) hyn _ hf (left_mem_segment y n)
  rw [winding_eq (fun f hf => h.first.fst_ne_snd hf) halong,
    winding_eq (fun f hf => h.first.fst_ne_snd hf) haway]
  simp only at hone hone'
  omega

/-- An ear of the first part that is off the chord is an ear of the ring. -/
theorem ear (h : Cut l m m' v w) (hl : Leftward l) (hm : Leftward m) (hm' : Leftward m')
    (hear : Ear m p x n) (hv : x ≠ v) (hw : x ≠ w) : Ear l p x n where
  before := h.of_first _ hear.before fun heq => hv (congrArg Prod.snd heq)
  after := h.of_first _ hear.after fun heq => hw (congrArg Prod.fst heq)
  left := hear.left
  empty y hy hp hx hn hin := by
    obtain ⟨u, hu⟩ := Ring.exists_mem_sides hy
    by_cases hym : y ∈ m
    · exact hear.empty y hym hp hx hn hin
    have hym' : y ∈ m' :=
      Ring.fst_mem_of_mem_sides ((h.sides _ hu).resolve_left fun hu => hym (Ring.fst_mem_of_mem_sides hu))
    obtain ⟨hout, hzero⟩ := h.winding_eq_zero hl hm' hym'
      (fun heq => hym (heq ▸ Ring.snd_mem_of_mem_sides h.chord))
      fun heq => hym (heq ▸ Ring.fst_mem_of_mem_sides h.chord)
    have hone := hear.winding_eq_one h.first hm hin hout
    omega

end Cut

/-- A chord that meets no side in between cuts a ring in two. -/
theorem Simple.cut (h : Simple (v :: (s ++ w :: r))) (hs : s ≠ []) (hr : r ≠ [])
    (hclean : ∀ f ∈ Ring.sides (v :: (s ++ w :: r)), ∀ z ∈ segment v w, z ∈ segment f.1 f.2 →
      z = v ∨ z = w) : Cut (v :: (s ++ w :: r)) (v :: (s ++ [w])) (v :: w :: r) v w := by
  obtain ⟨hall, hfirst, hsecond⟩ := Ring.sides_split v s w r
  have hs' := length_pos_iff.2 hs
  have hr' := length_pos_iff.2 hr
  have hof_first : ∀ e ∈ Ring.sides (v :: (s ++ [w])), e ≠ (w, v) →
      e ∈ Ring.sides (v :: (s ++ w :: r)) := by
    intro e he hne
    rw [hfirst, mem_append, mem_singleton] at he
    rw [hall, mem_append]
    exact .inl (he.resolve_right hne)
  have hof_second : ∀ e ∈ Ring.sides (v :: w :: r), e ≠ (v, w) →
      e ∈ Ring.sides (v :: (s ++ w :: r)) := by
    intro e he hne
    rw [hsecond, mem_cons] at he
    rw [hall, mem_append]
    exact .inr (he.resolve_left hne)
  have hnodup := h.nodup
  rw [nodup_cons, nodup_append, nodup_cons] at hnodup
  obtain ⟨hv, hsnodup, ⟨hw, hrnodup⟩, hdisjoint⟩ := hnodup
  refine ⟨h, ?_, ?_, by simp [hfirst], by simp [hsecond], fun e he => ?_, hof_first, hof_second, ?_,
    fun q => winding_split v s w r q⟩
  · refine h.of_sides (g := (w, v)) (by simp; omega) ?_ (by simp) (by simp) hof_first
      fun e he hne z hz hze => (hclean e (hof_first e he hne) z (segment_symm hz) hze).symm
    exact h.nodup.sublist (by simp)
  · refine h.of_sides (g := (v, w)) (by simp; omega) ?_ (by simp) (by simp) hof_second
      fun e he hne z hz hze => hclean e (hof_second e he hne) z hz hze
    exact h.nodup.sublist (by simp)
  · rw [hall, mem_append] at he
    rw [hfirst, hsecond, mem_append, mem_cons]
    exact he.imp .inl (mem_cons_of_mem _)
  · intro y hy hy'
    by_contra hne
    rw [not_or] at hne
    have hys : y ∈ s := by simpa [hne.1, hne.2] using hy
    have hyr : y ∈ r := by simpa [hne.1, hne.2] using hy'
    exact hdisjoint y hys y (mem_cons_of_mem _ hyr) rfl

/-! ### At an extreme corner -/

theorem Extreme.rotate (h : Extreme l v) (hl : l ~r l') : Extreme l' v := by
  obtain ⟨hv, g, hg⟩ := h
  exact ⟨hl.mem_iff.1 hv, g, fun y hy hne => hg y (hl.mem_iff.2 hy) hne⟩

theorem Extreme.subset (h : Extreme l v) (hm : m ⊆ l) (hv : v ∈ m) : Extreme m v := by
  obtain ⟨-, g, hg⟩ := h
  exact ⟨hv, g, fun y hy hne => hg y (hm hy) hne⟩

/-- The segment from a corner to the corner in its triangle that is farthest from the base meets no
side in between. -/
theorem Simple.eq_end_of_mem_farthest (h : Simple l) (ha : (a, v) ∈ Ring.sides l)
    (hb : (v, b) ∈ Ring.sides l) (hleft : 0 < turn a v b) (haw : 0 < turn a v w) (hbw : 0 < turn v b w)
    (hbase : 0 ≤ turn b a w)
    (hmax : ∀ y ∈ l, y ≠ a → y ≠ v → y ≠ b → y ∈ triangle a v b → turn b a y ≤ turn b a w)
    (hf : f ∈ Ring.sides l) (hz : z ∈ segment v w) (hzf : z ∈ segment f.1 f.2) : z = v ∨ z = w := by
  obtain ⟨t, ht0, ht1, rfl⟩ := hz
  by_cases ht0' : t = 0
  · exact .inl (by rw [ht0', lerp_zero])
  by_cases ht1' : t = 1
  · exact .inr (by rw [ht1', lerp_one])
  have htpos : 0 < t := lt_of_le_of_ne ht0 (Ne.symm ht0')
  have htlt : t < 1 := lt_of_le_of_ne ht1 ht1'
  have hsum := turn_add_turn a v b w
  have hza : 0 < turn a v (lerp v w t) := by
    rw [turn_lerp, turn_self_right]
    linarith [mul_pos htpos haw]
  have hzb : 0 < turn v b (lerp v w t) := by
    rw [turn_lerp, turn_self_left]
    linarith [mul_pos htpos hbw]
  have hzbase : turn b a w < turn b a (lerp v w t) := by
    rw [turn_lerp, ← turn_rotate v b a, ← turn_rotate a v b]
    nlinarith
  have hfa : f ≠ (a, v) := by
    rintro rfl
    exact not_mem_of_turn_ne_zero hza.ne' hzf
  have hfb : f ≠ (v, b) := by
    rintro rfl
    exact not_mem_of_turn_ne_zero hzb.ne' hzf
  -- away from the base the side ends in the triangle, farther from the base than the farthest corner
  have hend : ∀ c d, f = (c, d) ∨ f = (d, c) → lerp v w t ∈ segment c d →
      ¬ turn b a (lerp v w t) ≤ turn b a d := by
    intro c d hcd hzcd haway
    have hmem := h.mem_triangle_of_side ha hb hleft hf hfa.symm hfb.symm hcd hzcd hza hzb
      (hbase.trans hzbase.le) haway
    have hd : d ∈ l ∧ d ≠ v := by
      rcases hcd with rfl | rfl
      · exact ⟨Ring.snd_mem_of_mem_sides hf, fun heq => hfa (Ring.eq_of_snd_eq h.nodup hf ha heq)⟩
      · exact ⟨Ring.fst_mem_of_mem_sides hf, fun heq => hfb (Ring.eq_of_fst_eq h.nodup hf hb heq)⟩
    have hda : d ≠ a := by
      rintro rfl
      rw [turn_self_right] at haway
      linarith
    have hdb : d ≠ b := by
      rintro rfl
      rw [turn_self_left] at haway
      linarith
    linarith [hmax d hd.1 hda hd.2 hdb hmem]
  exfalso
  rcases turn_le_of_mem (a := b) (b := a) hzf with hle | hle
  · exact hend f.2 f.1 (.inr rfl) (segment_symm hzf) hle
  · exact hend f.1 f.2 (.inl rfl) hzf hle

/-- If an extreme corner that turns left is no ear, a chord leads from it to another corner. -/
theorem Simple.exists_cut (h : Simple l) (hv : Extreme l v) (ha : (a, v) ∈ Ring.sides l)
    (hb : (v, b) ∈ Ring.sides l) (hleft : 0 < turn a v b)
    (hy : ∃ y ∈ l, (y ≠ a ∧ y ≠ v ∧ y ≠ b) ∧ y ∈ triangle a v b) :
    ∃ m m' w, Cut l m m' v w ∧ Leftward m ∧ Leftward m' ∧ m.length < l.length ∧
      m'.length < l.length := by
  obtain ⟨w, ⟨hwl, ⟨hwa, hwv, hwb⟩, hin⟩, hmax⟩ :=
    Set.exists_max_image {y | y ∈ l ∧ (y ≠ a ∧ y ≠ v ∧ y ≠ b) ∧ y ∈ triangle a v b} (turn b a)
      (l.finite_toSet.subset fun y hy => hy.1) hy
  have haw : 0 < turn a v w := by
    refine lt_of_le_of_ne hin.1 fun heq => ?_
    rcases h.eq_end_of_mem hwl ha (mem_segment_of_mem_triangle hin hleft heq.symm) with heq | heq
    · exact hwa heq
    · exact hwv heq
  have hbw : 0 < turn v b w := by
    refine lt_of_le_of_ne hin.2.1 fun heq => ?_
    rcases h.eq_end_of_mem hwl hb (mem_segment_of_mem_triangle (mem_triangle_rotate hin)
      (by rwa [← turn_rotate a v b]) heq.symm) with heq | heq
    · exact hwv heq
    · exact hwb heq
  obtain ⟨k, hl⟩ := h.exists_around ha hb
  have hwk : w ∈ k := by simpa [hwv, hwb, hwa] using hl.mem_iff.1 hwl
  obtain ⟨s, r, rfl⟩ := append_of_mem hwk
  have hshape : v :: b :: (s ++ w :: r ++ [a]) = v :: (b :: s ++ w :: (r ++ [a])) := by simp
  rw [hshape] at hl
  have hcut := (h.rotate hl).cut (by simp) (by simp) fun f hf z hz hzf =>
    h.eq_end_of_mem_farthest ha hb hleft haw hbw hin.2.2
      (fun y hy hya hyv hyb hyin => hmax y ⟨hy, ⟨hya, hyv, hyb⟩, hyin⟩)
      ((Ring.mem_sides_iff hl).2 hf) hz hzf
  have hvl := hv.rotate hl
  have hlength := hl.perm.length_eq
  simp only [length_cons, length_append, cons_append, length_nil] at hlength
  refine ⟨_, _, w, hcut.rotate hl.symm, ?_, ?_, ?_, ?_⟩
  · refine hcut.first.leftward_of_turn_pos (hvl.subset ?_ (by simp)) hcut.chord
      (b := b) (by simp [Ring.sides_cons]) (by rwa [turn_rotate w v b])
    intro y
    simp only [cons_append, mem_cons, mem_append, not_mem_nil, or_false]
    tauto
  · refine hcut.second.leftward_of_turn_pos (hvl.subset ?_ (by simp)) (a := a)
      (Ring.mem_sides_corner.2 (.inl rfl)) hcut.chord' haw
    intro y
    simp only [cons_append, mem_cons, mem_append, not_mem_nil, or_false]
    tauto
  · simp only [length_cons, length_append, cons_append, length_nil]
    omega
  · simp only [length_cons, length_append, length_nil]
    omega

/-! ### Every simple ring has an ear -/

theorem Ear.of_three (h : l ~r [x, n, p]) (hleft : 0 < turn p x n) : Ear l p x n where
  before := (Ring.mem_sides_iff h).2 (by simp [Ring.sides_cons])
  after := (Ring.mem_sides_iff h).2 (by simp [Ring.sides_cons])
  left := hleft
  empty y hy hp hx hn := by
    have hy := h.mem_iff.1 hy
    simp only [mem_cons, not_mem_nil, or_false] at hy
    rcases hy with rfl | rfl | rfl
    · exact absurd rfl hx
    · exact absurd rfl hn
    · exact absurd rfl hp

/-- With an extreme ear at `v` clipped, the ears off the base are ears of the whole ring. -/
theorem Ear.of_without (h : Simple (v :: b :: (k ++ [a]))) (hl : Leftward (v :: b :: (k ++ [a])))
    (hv : Extreme (v :: b :: (k ++ [a])) v) (hk : k ≠ []) (hear : Ear (v :: b :: (k ++ [a])) a v b)
    (hear' : Ear (b :: (k ++ [a])) p x n) (hxa : x ≠ a) (hxb : x ≠ b) :
    Ear (v :: b :: (k ++ [a])) p x n where
  before := (ne_of_mem_sides_without h hk hear'.before fun heq => hxb (congrArg Prod.snd heq)).1
  after := (ne_of_mem_sides_without h hk hear'.after fun heq => hxa (congrArg Prod.fst heq)).1
  left := hear'.left
  empty y hy hp hx hn hin := by
    rcases mem_cons.1 hy with rfl | hy
    · have hyk := (nodup_cons.1 h.nodup).1
      have hout : ∀ f ∈ Ring.sides (b :: (k ++ [a])), y ∉ segment f.1 f.2 := by
        intro f hf hmem
        by_cases hbase : f = (a, b)
        · subst hbase
          refine not_mem_of_turn_ne_zero ?_ hmem
          rw [turn_rotate a b y, turn_rotate b y a, turn_swap a y b]
          exact (neg_neg_of_pos hear.left).ne
        · rcases h.eq_end_of_mem hv.1 (ne_of_mem_sides_without h hk hf hbase).1 hmem with heq | heq
          · exact hyk (heq ▸ Ring.fst_mem_of_mem_sides hf)
          · exact hyk (heq ▸ Ring.snd_mem_of_mem_sides hf)
      have hone := hear'.winding_eq_one (hear.simple_without h hk) (hear.leftward_without h hl hk) hin hout
      obtain ⟨-, g, hg⟩ := hv
      have hzero := winding_of_level (l := b :: (k ++ [a])) (g := g) (q := y) fun u hu =>
        hg u (mem_cons_of_mem _ hu) fun heq => hyk (heq ▸ hu)
      omega
    · exact hear'.empty y hy hp hx hn hin

/-- A simple ring with the inside on its left has an ear off any given side. -/
theorem Simple.exists_ear (h : Simple l) (hl : Leftward l) (hg : g ∈ Ring.sides l) :
    ∃ p x n, Ear l p x n ∧ x ≠ g.1 ∧ x ≠ g.2 := by
  induction hlength : l.length using Nat.strong_induction_on generalizing l g with
  | h size ih =>
    subst hlength
    obtain ⟨v, hv⟩ := exists_extreme (ne_nil_of_length_pos (by have := h.size; omega : 0 < l.length))
    obtain ⟨a, b, ha, hb⟩ := h.exists_neighbours hv.1
    have hleft := h.turn_pos_of_leftward hl hv ha hb
    obtain ⟨hav, hvb, hab⟩ := h.neighbours_ne ha hb
    by_cases hin : ∃ y ∈ l, (y ≠ a ∧ y ≠ v ∧ y ≠ b) ∧ y ∈ triangle a v b
    · -- the ear is in the part that the side does not belong to
      obtain ⟨m, m', w, hcut, hm, hm', hlt, hlt'⟩ := h.exists_cut hv ha hb hleft hin
      have hoff : ∀ {m m' : List (Point ℚ)} {v w : Point ℚ}, Cut l m m' v w → g ∈ Ring.sides m' →
          ∀ {x}, x ∈ m → x ≠ v → x ≠ w → x ≠ g.1 ∧ x ≠ g.2 := by
        intro m m' v w hcut hg' x hx hxv hxw
        have hx' : x ∉ m' := fun hx' => by
          rcases hcut.common x hx hx' with heq | heq
          · exact hxv heq
          · exact hxw heq
        exact ⟨fun heq => hx' (heq ▸ Ring.fst_mem_of_mem_sides hg'),
          fun heq => hx' (heq ▸ Ring.snd_mem_of_mem_sides hg')⟩
      rcases hcut.sides g hg with hg' | hg'
      · obtain ⟨p, x, n, hear, hxv, hxw⟩ := ih _ hlt' hcut.second hm' hcut.chord' rfl
        exact ⟨p, x, n, hcut.symm.ear hl hm' hm hear hxw hxv,
          hoff hcut.symm hg' (Ring.fst_mem_of_mem_sides hear.after) hxw hxv⟩
      · obtain ⟨p, x, n, hear, hxw, hxv⟩ := ih _ hlt hcut.first hm hcut.chord rfl
        exact ⟨p, x, n, hcut.ear hl hm hm' hear hxv hxw,
          hoff hcut hg' (Ring.fst_mem_of_mem_sides hear.after) hxv hxw⟩
    · have hear : Ear l a v b :=
        ⟨ha, hb, hleft, fun y hy hya hyv hyb hmem => hin ⟨y, hy, ⟨hya, hyv, hyb⟩, hmem⟩⟩
      by_cases hgv : v ≠ g.1 ∧ v ≠ g.2
      · exact ⟨a, v, b, hear, hgv⟩
      -- the side is one of the two at the ear, so what is off the base is off the side
      have hgab : g = (a, v) ∨ g = (v, b) := by
        by_cases h1 : v = g.1
        · exact .inr (Ring.eq_of_fst_eq h.nodup hg hb h1.symm)
        · exact .inl (Ring.eq_of_snd_eq h.nodup hg ha (not_not.1 fun h2 => hgv ⟨h1, Ne.symm h2⟩))
      obtain ⟨k, hk⟩ := h.exists_around ha hb
      by_cases hnil : k = []
      · subst hnil
        rw [nil_append] at hk
        have hk' : l ~r [b, a, v] := hk.trans ⟨1, rfl⟩
        have hk'' : l ~r [a, v, b] := hk'.trans ⟨1, rfl⟩
        rcases hgab with rfl | rfl
        · exact ⟨v, b, a, .of_three hk' (by rwa [← turn_rotate a v b]), hab.symm, hvb.symm⟩
        · exact ⟨b, a, v, .of_three hk'' (by rwa [turn_rotate b a v]), hav, hab⟩
      · have hvk := (nodup_cons.1 (h.rotate hk).nodup).1
        obtain ⟨hrest, hrest'⟩ := hear.clip h hl hk hnil
        obtain ⟨p, x, n, hear', hxa, hxb⟩ := ih _ (by simp [hk.perm.length_eq]) hrest hrest'
          (Ring.mem_sides_without.2 (.inl rfl)) rfl
        have hxv : x ≠ v := fun heq => hvk (heq ▸ Ring.fst_mem_of_mem_sides hear'.after)
        refine ⟨p, x, n, (Ear.of_without (h.rotate hk) (hl.rotate hk) (hv.rotate hk) hnil
          (hear.rotate hk) hear' hxa hxb).rotate hk.symm, ?_⟩
        rcases hgab with rfl | rfl
        · exact ⟨hxa, hxv⟩
        · exact ⟨hxv, hxb⟩

/-! ### Which way a ring goes round -/

theorem Simple.shoelace_pos (h : Simple l) (hl : Leftward l) : 0 < shoelace l := by
  induction hlength : l.length using Nat.strong_induction_on generalizing l with
  | h size ih =>
    subst hlength
    obtain ⟨c, q, r, d, hcorner⟩ := Ring.exists_corner h.size
    obtain ⟨p, x, n, hear, -⟩ := h.exists_ear hl (g := (c, q)) (by simp [hcorner, Ring.sides_cons])
    obtain ⟨k, hk⟩ := h.exists_around hear.before hear.after
    rw [shoelace_rotate hk]
    by_cases hnil : k = []
    · subst hnil
      rw [nil_append, shoelace_three, turn_rotate x n p, turn_rotate n p x]
      exact hear.left
    · obtain ⟨hrest, hrest'⟩ := hear.clip h hl hk hnil
      have hpos := ih _ (by simp [hk.perm.length_eq]) hrest hrest' rfl
      rw [shoelace_corner]
      linarith [hear.left]

theorem Simple.reverse (h : Simple l) : Simple l.reverse := by
  refine ⟨by rw [length_reverse]; exact h.size, nodup_reverse.2 h.nodup, fun e he f hf hne z hze hzf => ?_⟩
  obtain ⟨e, he', rfl⟩ := mem_map.1 ((Ring.sides_reverse_perm l).mem_iff.1 he)
  obtain ⟨f, hf', rfl⟩ := mem_map.1 ((Ring.sides_reverse_perm l).mem_iff.1 hf)
  obtain ⟨hend, hend'⟩ := h.meets e he' f hf' (fun heq => hne (heq ▸ rfl)) z (segment_symm hze)
    (segment_symm hzf)
  exact ⟨hend.symm, hend'.symm⟩

/-- A simple ring or its reverse has the inside on its left. -/
theorem Simple.leftward_or (h : Simple l) : Leftward l ∨ Leftward l.reverse := by
  obtain ⟨v, hv⟩ := exists_extreme (ne_nil_of_length_pos (by have := h.size; omega : 0 < l.length))
  obtain ⟨a, b, ha, hb⟩ := h.exists_neighbours hv.1
  have hswap : ∀ e ∈ Ring.sides l, e.swap ∈ Ring.sides l.reverse := fun e he =>
    (Ring.sides_reverse_perm l).mem_iff.2 (mem_map_of_mem he)
  rcases lt_or_gt_of_ne (h.turn_ne_zero hv ha hb) with hlt | hgt
  · refine .inr (h.reverse.leftward_of_turn_pos (hv.subset (fun y hy => mem_reverse.1 hy)
      (mem_reverse.2 hv.1)) (hswap _ hb) (hswap _ ha) ?_)
    rw [turn_swap v b a, ← turn_rotate a v b]
    exact neg_pos_of_neg hlt
  · exact .inl (h.leftward_of_turn_pos hv ha hb hgt)

/-- The area tells the direction. -/
theorem Simple.leftward_of_shoelace_nonneg (h : Simple l) (hl : 0 ≤ shoelace l) : Leftward l := by
  rcases h.leftward_or with hleft | hleft
  · exact hleft
  · have hpos := h.reverse.shoelace_pos hleft
    rw [shoelace_reverse] at hpos
    linarith

end Draftboard.Plane
