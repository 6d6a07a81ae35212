import Mathlib.Algebra.BigOperators.Group.List.Basic
import Mathlib.Data.List.Rotate
import Mathlib.Tactic.Abel

/-!
# Draftboard.Proofs.Geometry.Ring

Lists that are read as rings: the last entry is followed by the first one again.

* `sides` are the steps of a ring from each entry to the next. Where the list starts does not matter
  (`sides_perm`), and what is summed up along the sides cancels (`sum_sides_sub`).
* A ring that is turned so that one of its entries comes first loses that entry by dropping the head:
  two sides give way to one (`sides_corner`, `sides_without`). A chord from the first entry to
  another one cuts a ring in two (`sides_split`).
-/

namespace Draftboard.Ring

open List

variable {β γ : Type}

/-! ### Walks -/

/-- The steps of a list from each entry to the next. -/
def walk : List β → List (β × β)
  | a :: b :: l => (a, b) :: walk (b :: l)
  | _ => []

@[simp] theorem walk_singleton (a : β) : walk [a] = [] := rfl

@[simp] theorem walk_cons_cons (a b : β) (l : List β) : walk (a :: b :: l) = (a, b) :: walk (b :: l) :=
  rfl

theorem walk_eq_zip (l : List β) : walk l = l.zip l.tail := by
  induction l with
  | nil => rfl
  | cons a l ih => cases l <;> simp_all

theorem walk_append (l : List β) (a : β) (m : List β) :
    walk (l ++ a :: m) = walk (l ++ [a]) ++ walk (a :: m) := by
  induction l with
  | nil => rfl
  | cons b l ih => cases l <;> simp_all

theorem walk_concat (l : List β) (a b : β) : walk (l ++ [a] ++ [b]) = walk (l ++ [a]) ++ [(a, b)] := by
  simpa using walk_append l a [b]

theorem walk_map (f : β → γ) (l : List β) : walk (l.map f) = (walk l).map (Prod.map f f) := by
  induction l with
  | nil => rfl
  | cons a l ih => cases l <;> simp_all

theorem walk_reverse (l : List β) : walk l.reverse = ((walk l).map Prod.swap).reverse := by
  induction l with
  | nil => rfl
  | cons a l ih =>
    cases l with
    | nil => rfl
    | cons b l =>
      rw [reverse_cons, reverse_cons, walk_concat, ← reverse_cons, ih]
      simp

theorem map_fst_walk (l : List β) (a : β) : (walk (l ++ [a])).map Prod.fst = l := by
  induction l with
  | nil => rfl
  | cons b l ih => cases l <;> simp_all

theorem map_snd_walk (a : β) (l : List β) : (walk (a :: l)).map Prod.snd = l := by
  induction l generalizing a with
  | nil => rfl
  | cons b l ih => simp [ih]

/-! ### Sides -/

/-- The steps of a ring, the last one leading back to the start. -/
def sides : List β → List (β × β)
  | [] => []
  | a :: l => walk (a :: l ++ [a])

theorem sides_cons (a : β) (l : List β) : sides (a :: l) = walk (a :: l ++ [a]) := rfl

/-- A ring may start at any of its entries. -/
theorem sides_append_perm (l m : List β) : (sides (l ++ m)).Perm (sides (m ++ l)) := by
  have hsides : ∀ (a : β) (l : List β) (b : β) (m : List β),
      sides (a :: l ++ b :: m) = walk (a :: l ++ [b]) ++ walk (b :: m ++ [a]) := by
    intro a l b m
    have hwalk := walk_append (a :: l) b (m ++ [a])
    simpa [sides_cons] using hwalk
  cases l with
  | nil => simp
  | cons a l =>
    cases m with
    | nil => simp
    | cons b m =>
      rw [hsides, hsides]
      exact perm_append_comm

theorem sides_perm {l m : List β} (h : l ~r m) : (sides l).Perm (sides m) := by
  obtain ⟨n, rfl⟩ := h
  rw [rotate_eq_drop_append_take_mod]
  conv_lhs => rw [← take_append_drop (n % l.length) l]
  exact sides_append_perm _ _

theorem mem_sides_iff {l m : List β} (h : l ~r m) {e : β × β} : e ∈ sides l ↔ e ∈ sides m :=
  (sides_perm h).mem_iff

theorem sides_map (f : β → γ) (l : List β) : sides (l.map f) = (sides l).map (Prod.map f f) := by
  cases l with
  | nil => rfl
  | cons a l => rw [sides_cons, ← walk_map, map_cons, sides_cons, map_append, map_cons, map_singleton]

theorem map_fst_sides (l : List β) : (sides l).map Prod.fst = l := by
  cases l with
  | nil => rfl
  | cons a l => rw [sides_cons, map_fst_walk]

theorem map_snd_sides_perm (l : List β) : ((sides l).map Prod.snd).Perm l := by
  cases l with
  | nil => rfl
  | cons a l =>
    rw [sides_cons, cons_append, map_snd_walk]
    exact perm_append_singleton a l

theorem fst_mem_of_mem_sides {l : List β} {e : β × β} (h : e ∈ sides l) : e.1 ∈ l := by
  rw [← map_fst_sides l]
  exact mem_map_of_mem h

theorem snd_mem_of_mem_sides {l : List β} {e : β × β} (h : e ∈ sides l) : e.2 ∈ l :=
  (map_snd_sides_perm l).mem_iff.1 (mem_map_of_mem h)

/-- A side starts at every entry. -/
theorem exists_mem_sides {l : List β} {a : β} (h : a ∈ l) : ∃ b, (a, b) ∈ sides l := by
  rw [← map_fst_sides l] at h
  obtain ⟨⟨c, b⟩, hb, rfl⟩ := mem_map.1 h
  exact ⟨b, hb⟩

theorem nodup_sides {l : List β} (h : l.Nodup) : (sides l).Nodup :=
  Nodup.of_map Prod.fst (by rwa [map_fst_sides])

theorem eq_of_fst_eq {l : List β} (h : l.Nodup) {e f : β × β} (he : e ∈ sides l) (hf : f ∈ sides l)
    (hfst : e.1 = f.1) : e = f :=
  inj_on_of_nodup_map (by rwa [map_fst_sides]) he hf hfst

theorem eq_of_snd_eq {l : List β} (h : l.Nodup) {e f : β × β} (he : e ∈ sides l) (hf : f ∈ sides l)
    (hsnd : e.2 = f.2) : e = f :=
  inj_on_of_nodup_map ((map_snd_sides_perm l).nodup_iff.2 h) he hf hsnd

theorem sides_reverse_perm (l : List β) :
    (sides l.reverse).Perm ((sides l).map Prod.swap) := by
  cases l with
  | nil => rfl
  | cons a l =>
    have hturn : l.reverse ++ [a] ~r a :: l.reverse := (isRotated_append (l := [a])).symm
    rw [reverse_cons]
    refine (sides_perm hturn).trans ?_
    rw [sides_cons, sides_cons, show a :: l.reverse ++ [a] = (a :: l ++ [a]).reverse by simp,
      walk_reverse]
    exact reverse_perm _

/-- In a round of numbers each one is followed by the next, and the last one by zero. -/
theorem sides_range (count : Nat) :
    sides (range count) = (range count).map fun i => (i, (i + 1) % count) := by
  cases count with
  | zero => rfl
  | succ count =>
    rw [range_succ_eq_map, sides_cons, walk_eq_zip, ← range_succ_eq_map]
    refine ext_getElem (by simp) fun i hi hi' => ?_
    simp only [length_map, length_range] at hi'
    rcases Nat.lt_or_ge (i + 1) (count + 1) with hlt | hge
    · simp [Nat.mod_eq_of_lt hlt, show i < count by omega, hi', Nat.add_comm]
    · obtain rfl : i = count := by omega
      simp

/-- What changes from entry to entry comes to nothing in a whole round. -/
theorem sum_sides_sub {G : Type} [AddCommGroup G] (f : β → G) (l : List β) :
    ((sides l).map fun e => f e.2 - f e.1).sum = 0 := by
  have hsub : ∀ es : List (β × β), (es.map fun e => f e.2 - f e.1).sum =
      ((es.map Prod.snd).map f).sum - ((es.map Prod.fst).map f).sum := by
    intro es
    induction es with
    | nil => simp
    | cons e es ih =>
      simp only [map_cons, sum_cons, ih]
      abel
  rw [hsub, map_fst_sides, ((map_snd_sides_perm l).map f).sum_eq, sub_self]

/-! ### Corners and chords -/

/-- The sides of a ring whose first entry `c` stands between `p` and `n`. -/
theorem sides_corner (c n : β) (l : List β) (p : β) :
    sides (c :: n :: (l ++ [p])) = (c, n) :: walk (n :: (l ++ [p])) ++ [(p, c)] := by
  rw [sides_cons, show c :: n :: (l ++ [p]) ++ [c] = c :: n :: l ++ [p] ++ [c] by simp, walk_concat]
  simp

/-- The sides of the ring without that entry. -/
theorem sides_without (n : β) (l : List β) (p : β) :
    sides (n :: (l ++ [p])) = walk (n :: (l ++ [p])) ++ [(p, n)] := by
  rw [sides_cons, show n :: (l ++ [p]) ++ [n] = n :: l ++ [p] ++ [n] by simp, walk_concat]
  simp

theorem mem_sides_corner {c n : β} {l : List β} {p : β} {e : β × β} :
    e ∈ sides (c :: n :: (l ++ [p])) ↔ e = (p, c) ∨ e = (c, n) ∨ e ∈ walk (n :: (l ++ [p])) := by
  rw [sides_corner, cons_append, mem_cons, mem_append, mem_singleton, or_comm (b := e = (p, c)),
    or_left_comm]

theorem mem_sides_without {n : β} {l : List β} {p : β} {e : β × β} :
    e ∈ sides (n :: (l ++ [p])) ↔ e = (p, n) ∨ e ∈ walk (n :: (l ++ [p])) := by
  rw [sides_without, mem_append, mem_singleton, or_comm]

/-- A chord from `v` to `w` is a side of either part, in opposite directions. -/
theorem sides_split (v : β) (l : List β) (w : β) (m : List β) :
    sides (v :: (l ++ w :: m)) = walk (v :: (l ++ [w])) ++ walk (w :: (m ++ [v])) ∧
      sides (v :: (l ++ [w])) = walk (v :: (l ++ [w])) ++ [(w, v)] ∧
      sides (v :: w :: m) = (v, w) :: walk (w :: (m ++ [v])) := by
  refine ⟨?_, ?_, ?_⟩
  · rw [sides_cons, show v :: (l ++ w :: m) ++ [v] = v :: l ++ w :: (m ++ [v]) by simp, walk_append]
    simp
  · rw [sides_cons, show v :: (l ++ [w]) ++ [v] = v :: l ++ [w] ++ [v] by simp, walk_concat]
    simp
  · rw [sides_cons]
    simp

/-- A list of three or more entries has a first, a second and a last one. -/
theorem exists_corner {l : List β} (h : 3 ≤ l.length) :
    ∃ c n m p, l = c :: n :: (m ++ [p]) := by
  obtain _ | ⟨c, _ | ⟨n, _ | ⟨d, m⟩⟩⟩ := l
  · cases h
  · simp at h
  · simp at h
  · exact ⟨c, n, (d :: m).dropLast, (d :: m).getLast (by simp), by rw [dropLast_append_getLast]⟩

/-- Any entry can be made the first one. -/
theorem exists_rotated_of_mem {l : List β} {c : β} (h : c ∈ l) : ∃ m, l ~r c :: m := by
  obtain ⟨s, t, rfl⟩ := append_of_mem h
  exact ⟨t ++ s, isRotated_append⟩

/-- Any entry of a ring of three or more stands between two others. -/
theorem exists_corner_of_mem {l : List β} {c : β} (h : c ∈ l) (hlength : 3 ≤ l.length) :
    ∃ n m p, l ~r c :: n :: (m ++ [p]) := by
  obtain ⟨k, hk⟩ := exists_rotated_of_mem h
  rw [hk.perm.length_eq] at hlength
  obtain ⟨c', n, m, p, heq⟩ := exists_corner hlength
  obtain ⟨rfl, rfl⟩ := List.cons.inj heq
  exact ⟨n, m, p, hk⟩

end Draftboard.Ring
