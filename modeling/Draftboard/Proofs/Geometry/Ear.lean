import Draftboard.Proofs.Geometry.Interior

/-!
# Draftboard.Proofs.Geometry.Ear

Ears of a ring: corners to the left whose triangle holds no other corner of the ring.

* A side that gets into the triangle of a corner `x` past its two sides at `x` cannot get out again
  there, so it ends inside (`Simple.mem_triangle_of_side`). Hence no other side of the ring meets the
  triangle of an ear, except at the ends of its base (`Ear.meets`).
* So an ear can be clipped: the ring without it is simple (`Ear.simple_without`).
* A point in the triangle of an ear sees a side of it. If the ring goes round to the left, it goes
  once round the point (`Ear.winding_eq_one`), and what is left without the ear goes round to the left
  too (`Ear.leftward_without`).
-/

namespace Draftboard.Plane

open List

variable {a b c d n p x y z : Point ℚ} {k l m : List (Point ℚ)} {e f g : Point ℚ × Point ℚ}

/-! ### Triangles -/

/-- The closed triangle whose corners `a`, `b` and `c` go round to the left. -/
def triangle (a b c : Point ℚ) : Set (Point ℚ) :=
  {z | 0 ≤ turn a b z ∧ 0 ≤ turn b c z ∧ 0 ≤ turn c a z}

theorem mem_triangle_rotate (h : z ∈ triangle a b c) : z ∈ triangle b c a := ⟨h.2.1, h.2.2, h.1⟩

theorem turn_add_turn (a b c z : Point ℚ) : turn a b z + turn b c z + turn c a z = turn a b c := by
  simp only [turn]
  ring

/-- What lies in the triangle and on the line of a side lies on that side. -/
theorem mem_segment_of_mem_triangle (h : z ∈ triangle a b c) (habc : 0 < turn a b c)
    (hz : turn a b z = 0) : z ∈ segment a b := by
  have hsum := turn_add_turn a b c z
  have hx : turn a b c * (z.x - a.x) = turn c a z * (b.x - a.x) + turn a b z * (c.x - a.x) := by
    simp only [turn]
    ring
  have hy : turn a b c * (z.y - a.y) = turn c a z * (b.y - a.y) + turn a b z * (c.y - a.y) := by
    simp only [turn]
    ring
  refine ⟨turn c a z / turn a b c, div_nonneg h.2.2 habc.le, ?_, ?_⟩
  · rw [div_le_one habc]
    linarith [h.2.1]
  · ext
    · simp only [lerp]
      field_simp
      linear_combination hx + hz * (c.x - a.x)
    · simp only [lerp]
      field_simp
      linear_combination hy + hz * (c.y - a.y)

/-- The weighted means of three points. -/
def hull (a b c : Point ℚ) : Set (Point ℚ) :=
  {z | ∃ r s t : ℚ, (0 ≤ r ∧ 0 ≤ s ∧ 0 ≤ t) ∧ r + s + t = 1 ∧
    z = ⟨r * a.x + s * b.x + t * c.x, r * a.y + s * b.y + t * c.y⟩}

/-- The triangle is all that lies between its corners. -/
theorem mem_triangle_iff (habc : 0 < turn a b c) : z ∈ triangle a b c ↔ z ∈ hull a b c := by
  constructor
  · rintro ⟨hc, ha, hb⟩
    have hsum := turn_add_turn a b c z
    refine ⟨turn b c z / turn a b c, turn c a z / turn a b c, turn a b z / turn a b c,
      ⟨div_nonneg ha habc.le, div_nonneg hb habc.le, div_nonneg hc habc.le⟩, ?_, ?_⟩
    · field_simp
      linarith
    · ext
      · field_simp
        simp only [turn]
        ring
      · field_simp
        simp only [turn]
        ring
  · rintro ⟨r, s, t, ⟨hr, hs, ht⟩, hsum, rfl⟩
    obtain rfl : r = 1 - s - t := by linarith
    have hab : turn a b ⟨(1 - s - t) * a.x + s * b.x + t * c.x,
        (1 - s - t) * a.y + s * b.y + t * c.y⟩ = t * turn a b c := by
      simp only [turn]
      ring
    have hbc : turn b c ⟨(1 - s - t) * a.x + s * b.x + t * c.x,
        (1 - s - t) * a.y + s * b.y + t * c.y⟩ = (1 - s - t) * turn a b c := by
      simp only [turn]
      ring
    have hca : turn c a ⟨(1 - s - t) * a.x + s * b.x + t * c.x,
        (1 - s - t) * a.y + s * b.y + t * c.y⟩ = s * turn a b c := by
      simp only [turn]
      ring
    exact ⟨hab ▸ mul_nonneg ht habc.le, hbc ▸ mul_nonneg hr habc.le, hca ▸ mul_nonneg hs habc.le⟩

/-- A point on the way between two points of a triangle. -/
theorem lerp_mem_triangle {t : ℚ} (hy : y ∈ triangle a b c) (hz : z ∈ triangle a b c) (ht0 : 0 ≤ t)
    (ht1 : t ≤ 1) : lerp y z t ∈ triangle a b c := by
  have hmem : lerp y z t ∈ segment y z := ⟨t, ht0, ht1, rfl⟩
  exact ⟨turn_nonneg_of_mem hmem hy.1 hz.1, turn_nonneg_of_mem hmem hy.2.1 hz.2.1,
    turn_nonneg_of_mem hmem hy.2.2 hz.2.2⟩

/-! ### Sides that enter a triangle -/

namespace Simple

/-- A side, read in either direction, has only end points in common with another one. -/
theorem meets_either (h : Simple l) (he : e ∈ Ring.sides l) (hf : f ∈ Ring.sides l) (hne : e ≠ f)
    (hcd : f = (c, d) ∨ f = (d, c)) (hze : z ∈ segment e.1 e.2) (hz : z ∈ segment c d) :
    (z = e.1 ∨ z = e.2) ∧ (z = c ∨ z = d) := by
  rcases hcd with rfl | rfl
  · exact h.meets e he _ hf hne z hze hz
  · obtain ⟨hends, hends'⟩ := h.meets e he _ hf hne z hze (segment_symm hz)
    exact ⟨hends, hends'.symm⟩

/-- A side that changes to the other side of another side's line does so beside that side. -/
theorem not_mem_of_crosses (h : Simple l) (he : e ∈ Ring.sides l) (hf : f ∈ Ring.sides l) (hne : e ≠ f)
    (hcd : f = (c, d) ∨ f = (d, c)) (hz : z ∈ segment c d) (hpos : 0 < turn e.1 e.2 z)
    (hneg : turn e.1 e.2 d < 0) {r : ℚ} (hr0 : 0 ≤ r) (hr1 : r ≤ 1)
    (hzero : turn e.1 e.2 (lerp z d r) = 0) : lerp z d r ∉ segment e.1 e.2 := by
  intro hmem
  obtain ⟨s, hs0, hs1, rfl⟩ := hz
  have hcross : lerp (lerp c d s) d r ∈ segment c d := by
    refine mem_segment_of_lerp hs0 hs1 zero_le_one le_rfl ⟨r, hr0, hr1, ?_⟩
    rw [lerp_one]
  rcases (h.meets_either he hf hne hcd hmem hcross).2 with heq | heq
  · -- then the other end would lie on the line, and nothing of the side before it
    rw [heq] at hzero
    rw [turn_lerp, hzero] at hpos
    nlinarith
  · rw [heq] at hzero
    exact hneg.ne hzero

/-- So it does not leave a triangle through that side. -/
theorem leaves_beside (h : Simple l) (hab : (a, b) ∈ Ring.sides l) (habc : 0 < turn a b p)
    (hf : f ∈ Ring.sides l) (hne : (a, b) ≠ f) (hcd : f = (c, d) ∨ f = (d, c)) (hz : z ∈ segment c d)
    (hpos : 0 < turn a b z) (hneg : turn a b d < 0) :
    ∃ r, 0 ≤ r ∧ r ≤ 1 ∧ r * (turn a b z - turn a b d) = turn a b z ∧
      ¬ (0 ≤ turn b p (lerp z d r) ∧ 0 ≤ turn p a (lerp z d r)) := by
  have hgap : 0 < turn a b z - turn a b d := by linarith
  have hr : turn a b z / (turn a b z - turn a b d) * (turn a b z - turn a b d) = turn a b z :=
    div_mul_cancel₀ _ hgap.ne'
  have hr0 : 0 ≤ turn a b z / (turn a b z - turn a b d) := div_nonneg hpos.le hgap.le
  have hr1 : turn a b z / (turn a b z - turn a b d) ≤ 1 := by
    rw [div_le_one hgap]
    linarith
  have hzero : turn a b (lerp z d (turn a b z / (turn a b z - turn a b d))) = 0 := by
    rw [turn_lerp]
    linear_combination -hr
  refine ⟨_, hr0, hr1, hr, fun ⟨hb, ha⟩ => ?_⟩
  exact h.not_mem_of_crosses hab hf hne hcd hz hpos hneg hr0 hr1 hzero
    (mem_segment_of_mem_triangle ⟨hzero.ge, hb, ha⟩ habc hzero)

/-- A side that is in the triangle of a corner, off the two sides there, and goes away from the base,
ends in the triangle. -/
theorem mem_triangle_of_side (h : Simple l) (hp : (p, x) ∈ Ring.sides l) (hn : (x, n) ∈ Ring.sides l)
    (hturn : 0 < turn p x n) (hf : f ∈ Ring.sides l) (hfp : (p, x) ≠ f) (hfn : (x, n) ≠ f)
    (hcd : f = (c, d) ∨ f = (d, c)) (hz : z ∈ segment c d) (hzp : 0 < turn p x z)
    (hzn : 0 < turn x n z) (hbase : 0 ≤ turn n p z) (haway : turn n p z ≤ turn n p d) :
    d ∈ triangle p x n := by
  have hnp : ∀ r, 0 ≤ r → 0 ≤ turn n p (lerp z d r) := by
    intro r hr
    rw [turn_lerp]
    linarith [mul_nonneg hr (sub_nonneg.2 haway)]
  -- if it goes out across one of the two sides it has to be out across the other one before
  have hout : turn p x d < 0 → turn p x z * turn x n d < turn p x d * turn x n z := by
    intro hneg
    obtain ⟨r, hr0, -, hr, hnot⟩ := h.leaves_beside hp hturn hf hfp hcd hz hzp hneg
    have hlt : turn x n (lerp z d r) < 0 := by
      by_contra hle
      exact hnot ⟨not_lt.1 hle, hnp r hr0⟩
    rw [turn_lerp] at hlt
    have hscaled := mul_neg_of_neg_of_pos hlt (show 0 < turn p x z - turn p x d by linarith)
    linear_combination hscaled - (turn x n d - turn x n z) * hr
  have hout' : turn x n d < 0 → turn p x d * turn x n z < turn p x z * turn x n d := by
    intro hneg
    obtain ⟨r, hr0, -, hr, hnot⟩ := h.leaves_beside hn (by rwa [← turn_rotate p x n]) hf hfn hcd hz
      hzn hneg
    have hlt : turn p x (lerp z d r) < 0 := by
      by_contra hle
      exact hnot ⟨hnp r hr0, not_lt.1 hle⟩
    rw [turn_lerp] at hlt
    have hscaled := mul_neg_of_neg_of_pos hlt (show 0 < turn x n z - turn x n d by linarith)
    linear_combination hscaled - (turn p x d - turn p x z) * hr
  have hd : 0 ≤ turn p x d := by
    by_contra hneg
    rw [not_le] at hneg
    have hlt := hout hneg
    have hneg' : turn x n d < 0 := by
      by_contra hle
      nlinarith [mul_nonneg hzp.le (not_lt.1 hle), mul_pos (neg_pos.2 hneg) hzn]
    linarith [hout' hneg']
  have hd' : 0 ≤ turn x n d := by
    by_contra hneg
    rw [not_le] at hneg
    nlinarith [hout' hneg, mul_nonneg hd hzn.le, mul_pos hzp (neg_pos.2 hneg)]
  exact ⟨hd, hd', hbase.trans haway⟩

end Simple

/-! ### Ears -/

/-- A corner to the left between `p` and `n`, with no other corner in its triangle. -/
structure Ear (l : List (Point ℚ)) (p x n : Point ℚ) : Prop where
  before : (p, x) ∈ Ring.sides l
  after : (x, n) ∈ Ring.sides l
  left : 0 < turn p x n
  empty : ∀ y ∈ l, y ≠ p → y ≠ x → y ≠ n → y ∉ triangle p x n

namespace Ear

theorem rotate (hear : Ear l p x n) (hm : l ~r m) : Ear m p x n where
  before := (Ring.mem_sides_iff hm).1 hear.before
  after := (Ring.mem_sides_iff hm).1 hear.after
  left := hear.left
  empty y hy := hear.empty y (hm.mem_iff.2 hy)

/-- No other side of the ring gets into the triangle, except at the ends of the base. -/
theorem meets (h : Simple l) (hear : Ear l p x n) (hf : f ∈ Ring.sides l) (hfp : f ≠ (p, x))
    (hfn : f ≠ (x, n)) (hbase : f ≠ (n, p)) (hz : z ∈ segment f.1 f.2) (hin : z ∈ triangle p x n) :
    z = p ∨ z = n := by
  have hx : f.1 ≠ x ∧ f.2 ≠ x :=
    ⟨fun heq => hfn (Ring.eq_of_fst_eq h.nodup hf hear.after heq),
      fun heq => hfp (Ring.eq_of_snd_eq h.nodup hf hear.before heq)⟩
  have hzx : z = f.1 ∨ z = f.2 → z ≠ x := by
    rintro (rfl | rfl)
    · exact hx.1
    · exact hx.2
  by_cases hzp : turn p x z = 0
  · obtain ⟨hends, hends'⟩ := h.meets _ hear.before f hf hfp.symm z
      (mem_segment_of_mem_triangle hin hear.left hzp) hz
    exact .inl (hends.resolve_right (hzx hends'))
  by_cases hzn : turn x n z = 0
  · obtain ⟨hends, hends'⟩ := h.meets _ hear.after f hf hfn.symm z
      (mem_segment_of_mem_triangle (mem_triangle_rotate hin) (by rw [← turn_rotate p x n]; exact hear.left)
        hzn) hz
    exact .inr (hends.resolve_left (hzx hends'))
  -- away from the base it ends in the triangle, hence at an end of the base, so it runs along the base
  have hend : ∀ c d, f = (c, d) ∨ f = (d, c) → z ∈ segment c d → turn n p z ≤ turn n p d →
      d = p ∨ d = n := by
    intro c d hcd hzcd haway
    have hmem := h.mem_triangle_of_side hear.before hear.after hear.left hf hfp.symm hfn.symm hcd hzcd
      (lt_of_le_of_ne hin.1 (Ne.symm hzp)) (lt_of_le_of_ne hin.2.1 (Ne.symm hzn)) hin.2.2 haway
    have hd : d ∈ l ∧ d ≠ x := by
      rcases hcd with rfl | rfl
      · exact ⟨Ring.snd_mem_of_mem_sides hf, hx.2⟩
      · exact ⟨Ring.fst_mem_of_mem_sides hf, hx.1⟩
    by_contra hne
    rw [not_or] at hne
    exact hear.empty d hd.1 hne.1 hd.2 hne.2 hmem
  have hflat : ∀ d, d = p ∨ d = n → turn n p d = 0 := by
    rintro d (rfl | rfl) <;> simp
  have hkey : ∀ c d, f = (c, d) ∨ f = (d, c) → z ∈ segment c d → turn n p c ≤ turn n p d →
      z = p ∨ z = n := by
    intro c d hcd hzcd hle
    obtain ⟨s, hs0, hs1, hs⟩ := hzcd
    have hzc : turn n p z = turn n p c + s * (turn n p d - turn n p c) := by rw [hs, turn_lerp]
    have hd := hend c d hcd ⟨s, hs0, hs1, hs⟩ (by nlinarith)
    have hd0 := hflat d hd
    by_cases hs' : s = 1
    · rw [hs', lerp_one] at hs
      exact hs ▸ hd
    have hc0 : turn n p c = 0 := by
      have hin' := hin.2.2
      have hs'' : 0 < 1 - s := by
        have := lt_of_le_of_ne hs1 hs'
        linarith
      have hprod : 0 ≤ (1 - s) * turn n p c := by
        rw [hzc, hd0] at hin'
        linarith
      have hc := nonneg_of_mul_nonneg_right hprod hs''
      linarith
    have hc := hend d c hcd.symm (segment_symm ⟨s, hs0, hs1, hs⟩) (by rw [hzc, hd0, hc0]; linarith)
    have hne := h.fst_ne_snd hf
    obtain ⟨-, hxn, hpn⟩ := h.neighbours_ne hear.before hear.after
    have hfpn : f ≠ (p, n) := by
      rintro rfl
      exact hxn.symm (congrArg Prod.snd (Ring.eq_of_fst_eq h.nodup hf hear.before rfl))
    rcases hcd with rfl | rfl <;> rcases hc with rfl | rfl <;> rcases hd with rfl | rfl <;>
      simp_all
  rcases le_total (turn n p f.1) (turn n p f.2) with hle | hle
  · exact hkey f.1 f.2 (.inl rfl) hz hle
  · exact hkey f.2 f.1 (.inr rfl) (segment_symm hz) hle

/-- What lies inside the triangle is on no side. -/
theorem off_sides (h : Simple l) (hear : Ear l p x n) (hp : 0 < turn p x z) (hn : 0 < turn x n z)
    (hbase : 0 < turn n p z) : ∀ e ∈ Ring.sides l, z ∉ segment e.1 e.2 := by
  intro e he hmem
  by_cases hep : e = (p, x)
  · subst hep
    exact not_mem_of_turn_ne_zero hp.ne' hmem
  by_cases hen : e = (x, n)
  · subst hen
    exact not_mem_of_turn_ne_zero hn.ne' hmem
  by_cases heb : e = (n, p)
  · subst heb
    exact not_mem_of_turn_ne_zero hbase.ne' hmem
  rcases hear.meets h he hep hen heb hmem ⟨hp.le, hn.le, hbase.le⟩ with rfl | rfl
  · simp at hp
  · simp at hn

end Ear

/-! ### Without the ear -/

/-- Sides of a simple ring, and one more that meets them in end points only, make up a simple ring. -/
theorem Simple.of_sides (h : Simple l) (hsize : 3 ≤ m.length) (hnodup : m.Nodup) (hg1 : g.1 ∈ l)
    (hg2 : g.2 ∈ l) (hsides : ∀ e ∈ Ring.sides m, e ≠ g → e ∈ Ring.sides l)
    (hclean : ∀ e ∈ Ring.sides m, e ≠ g → ∀ z ∈ segment g.1 g.2, z ∈ segment e.1 e.2 →
      z = g.1 ∨ z = g.2) : Simple m := by
  have hends : ∀ e ∈ Ring.sides m, e ≠ g → ∀ z ∈ segment g.1 g.2, z ∈ segment e.1 e.2 →
      (z = g.1 ∨ z = g.2) ∧ (z = e.1 ∨ z = e.2) := by
    intro e he hne z hzg hze
    have hz := hclean e he hne z hzg hze
    have hzl : z ∈ l := by
      rcases hz with rfl | rfl
      · exact hg1
      · exact hg2
    exact ⟨hz, h.eq_end_of_mem hzl (hsides e he hne) hze⟩
  refine ⟨hsize, hnodup, fun e he f hf hne z hze hzf => ?_⟩
  by_cases heg : e = g
  · subst heg
    exact hends f hf hne.symm z hze hzf
  by_cases hfg : f = g
  · subst hfg
    exact (hends e he heg z hzf hze).symm
  exact h.meets e (hsides e he heg) f (hsides f hf hfg) hne z hze hzf

theorem Sees.rotate {m : List (Point ℚ)} {q r : Point ℚ} (h : Sees l e q r) (hm : l ~r m) :
    Sees m e q r where
  mem := (Ring.mem_sides_iff hm).1 h.mem
  mid := h.mid
  clear f hf := h.clear f ((Ring.mem_sides_iff hm).2 hf)

theorem Leftward.rotate (h : Leftward l) (hm : l ~r m) : Leftward m := by
  intro e he q r hsees
  rw [← winding_rotate hm]
  exact h e ((Ring.mem_sides_iff hm).2 he) q r (hsees.rotate hm.symm)

namespace Ear

/-- The sides that stay when the ear is clipped do not lead back along the base. -/
theorem ne_of_mem_sides_without (h : Simple (x :: n :: (k ++ [p]))) (hk : k ≠ [])
    (hf : f ∈ Ring.sides (n :: (k ++ [p]))) (hbase : f ≠ (p, n)) :
    f ∈ Ring.sides (x :: n :: (k ++ [p])) ∧ f ≠ (p, x) ∧ f ≠ (x, n) ∧ f ≠ (n, p) := by
  have hnodup := nodup_cons.1 h.nodup
  have hx : f.1 ≠ x ∧ f.2 ≠ x :=
    ⟨fun heq => hnodup.1 (heq ▸ Ring.fst_mem_of_mem_sides hf),
      fun heq => hnodup.1 (heq ▸ Ring.snd_mem_of_mem_sides hf)⟩
  refine ⟨Ring.mem_sides_corner.2 (.inr (.inr ((Ring.mem_sides_without.1 hf).resolve_left hbase))),
    fun heq => hx.2 (congrArg Prod.snd heq), fun heq => hx.1 (congrArg Prod.fst heq), ?_⟩
  rintro rfl
  obtain ⟨w, k, rfl⟩ := exists_cons_of_ne_nil hk
  have hnext : (n, w) ∈ Ring.sides (n :: (w :: k ++ [p])) := by simp [Ring.sides_cons]
  have heq : p = w := congrArg Prod.snd (Ring.eq_of_fst_eq hnodup.2 hf hnext rfl)
  simp [heq] at hnodup

/-- What is left without the ear is simple. -/
theorem simple_without (h : Simple (x :: n :: (k ++ [p]))) (hear : Ear (x :: n :: (k ++ [p])) p x n)
    (hk : k ≠ []) : Simple (n :: (k ++ [p])) := by
  refine h.of_sides (g := (p, n)) ?_ (nodup_cons.1 h.nodup).2 (by simp) (by simp)
    (fun e he hne => (ne_of_mem_sides_without h hk he hne).1) fun e he hne z hz hze => ?_
  · have hpos := length_pos_iff.2 hk
    simp only [length_cons, length_append, length_nil]
    omega
  · obtain ⟨hel, hep, hen, hbase⟩ := ne_of_mem_sides_without h hk he hne
    have hin : z ∈ triangle p x n := by
      obtain ⟨t, ht0, ht1, rfl⟩ := hz
      have hcorner := hear.left.le
      exact lerp_mem_triangle ⟨by simp, by simp [← turn_rotate p x n, hcorner], by simp⟩
        ⟨hcorner, by simp, by simp⟩ ht0 ht1
    exact hear.meets h hel hep hen hbase hze hin

/-- A point in the triangle of the ear, on no side, sees the first of the two sides. -/
theorem sees (h : Simple l) (hear : Ear l p x n) (hz : z ∈ triangle p x n)
    (hout : ∀ e ∈ Ring.sides l, z ∉ segment e.1 e.2) :
    Sees l (p, x) (lerp p x (1 / 2)) z ∧ 0 < turn p x z := by
  have hleft' : 0 < turn x n p := by rw [← turn_rotate p x n]; exact hear.left
  have hleft'' : 0 < turn n p x := by rw [← turn_rotate x n p]; exact hleft'
  have hzp : 0 < turn p x z := lt_of_le_of_ne hz.1 fun heq =>
    hout _ hear.before (mem_segment_of_mem_triangle hz hear.left heq.symm)
  have hzn : 0 < turn x n z := lt_of_le_of_ne hz.2.1 fun heq =>
    hout _ hear.after (mem_segment_of_mem_triangle (mem_triangle_rotate hz) hleft' heq.symm)
  refine ⟨⟨hear.before, ⟨1 / 2, by norm_num, by norm_num, rfl⟩, fun f hf hne w hw hwf => ?_⟩, hzp⟩
  have hmid : lerp p x (1 / 2) ∈ triangle p x n :=
    lerp_mem_triangle ⟨by simp, hleft'.le, by simp⟩ ⟨by simp, by simp, hleft''.le⟩ (by norm_num)
      (by norm_num)
  have hwin : w ∈ triangle p x n := by
    obtain ⟨r, hr0, hr1, rfl⟩ := hw
    exact lerp_mem_triangle hmid hz hr0 hr1
  have hwn : 0 < turn x n w := turn_pos_of_mem hw (by simp [turn_lerp]; linarith) hzn
  by_cases hfn : f = (x, n)
  · subst hfn
    exact not_mem_of_turn_ne_zero hwn.ne' hwf
  by_cases hbase : f = (n, p)
  · subst hbase
    have hznp : 0 < turn n p z := lt_of_le_of_ne hz.2.2 fun heq =>
      hout _ hf (mem_segment_of_mem_triangle (mem_triangle_rotate (mem_triangle_rotate hz)) hleft''
        heq.symm)
    have hwnp : 0 < turn n p w := turn_pos_of_mem hw (by simp [turn_lerp]; linarith) hznp
    exact not_mem_of_turn_ne_zero hwnp.ne' hwf
  rcases hear.meets h hf hne hfn hbase hwf hwin with heq | heq
  · -- the end of the side is not in the middle of it
    obtain ⟨r, -, -, rfl⟩ := hw
    have hr : r * turn p x z = 0 := by
      have hzero := congrArg (turn p x) heq
      simpa [turn_lerp] using hzero
    rw [(mul_eq_zero.1 hr).resolve_right hzp.ne', lerp_zero] at heq
    exact (ne_of_mid (h.fst_ne_snd hear.before) (by norm_num) (by norm_num)).1 heq
  · rw [heq, turn_self_right] at hwn
    exact lt_irrefl _ hwn

/-- A ring that goes round to the left goes once round a point in the triangle of an ear. -/
theorem winding_eq_one (h : Simple l) (hl : Leftward l) (hear : Ear l p x n) (hz : z ∈ triangle p x n)
    (hout : ∀ e ∈ Ring.sides l, z ∉ segment e.1 e.2) : winding l z = 1 := by
  obtain ⟨hsees, hleft⟩ := hear.sees h hz hout
  have hwinding := (hl _ hear.before _ _ hsees).1 hleft
  omega

/-- What is left without the ear goes round to the left as well. -/
theorem leftward_without (h : Simple (x :: n :: (k ++ [p]))) (hl : Leftward (x :: n :: (k ++ [p])))
    (hear : Ear (x :: n :: (k ++ [p])) p x n) (hk : k ≠ []) : Leftward (n :: (k ++ [p])) := by
  have hwithout := hear.simple_without h hk
  have hbase : (p, n) ∈ Ring.sides (n :: (k ++ [p])) := Ring.mem_sides_without.2 (.inl rfl)
  -- a point of the triangle that sees its base, which is a side now
  obtain ⟨t, ht0, ht1, hnear⟩ := hwithout.exists_sees hbase (show (0 : ℚ) < 1 / 2 by norm_num)
    (by norm_num) x
  have hsees := hnear t ht0.le le_rfl
  have hin : 0 < turn p x (lerp (lerp p n (1 / 2)) x t) ∧ 0 < turn x n (lerp (lerp p n (1 / 2)) x t) ∧
      0 < turn n p (lerp (lerp p n (1 / 2)) x t) := by
    have hleft := hear.left
    have hpx : turn p x (lerp (lerp p n (1 / 2)) x t) = (1 - t) / 2 * turn p x n := by
      simp only [turn, lerp]
      ring
    have hxn : turn x n (lerp (lerp p n (1 / 2)) x t) = (1 - t) / 2 * turn p x n := by
      simp only [turn, lerp]
      ring
    have hnp : turn n p (lerp (lerp p n (1 / 2)) x t) = t * turn p x n := by
      simp only [turn, lerp]
      ring
    have hpos : 0 < (1 - t) / 2 * turn p x n := mul_pos (by linarith) hleft
    exact ⟨hpx ▸ hpos, hxn ▸ hpos, hnp ▸ mul_pos ht0 hleft⟩
  obtain ⟨hpx, hxn, hnp⟩ := hin
  have hout := hear.off_sides h hpx hxn hnp
  have hone := hear.winding_eq_one h hl ⟨hpx.le, hxn.le, hnp.le⟩ hout
  rw [winding_corner, winding_triangle hpx hxn hnp] at hone
  obtain ⟨v, hv⟩ := hwithout.exists_values
  have hzero := (hv _ hbase _ _ hsees).2 (by
    rw [turn_swap n p]
    exact neg_neg_of_pos hnp)
  obtain rfl : v = 0 := by simp only at hzero; omega
  exact hv

/-- The ear of a ring can be clipped, wherever the ring starts. -/
theorem clip (h : Simple l) (hl : Leftward l) (hear : Ear l p x n) (hk : l ~r x :: n :: (k ++ [p]))
    (hnil : k ≠ []) : Simple (n :: (k ++ [p])) ∧ Leftward (n :: (k ++ [p])) :=
  ⟨(hear.rotate hk).simple_without (h.rotate hk) hnil,
    (hear.rotate hk).leftward_without (h.rotate hk) (hl.rotate hk) hnil⟩

end Ear

end Draftboard.Plane
