import Draftboard.Proofs.Authoring.Polyline
import Draftboard.Proofs.Picture.Settled

/-!
# Draftboard.Proofs.Authoring.Corners

How many different vertices a closed polygon has.

* A click on the first vertex closes a polygon that has three vertices. It is the clicks that are
  counted: one that repeats the place of the last one counts again.
* So a closed polygon has two different vertices, since no later vertex is on the first one. It has
  three if and only if the clicks beside the first vertex were not all at one place
  (`threeApart_ring`, `exists_ring_corners`).
* A double click makes a polygon without an interior (`ring_of_two_places`).
-/

namespace Draftboard

open Session (tick)

/-! ### Different points -/

/-- Two of the points differ. -/
def TwoApart (points : List (Point Float)) : Prop :=
  ∃ p ∈ points, ∃ q ∈ points, (p == q) = false

/-- Three of the points differ from each other. -/
def ThreeApart (points : List (Point Float)) : Prop :=
  ∃ p ∈ points, ∃ q ∈ points, ∃ r ∈ points, (p == q) = false ∧ (q == r) = false ∧ (p == r) = false

instance (points : List (Point Float)) : Decidable (TwoApart points) :=
  inferInstanceAs (Decidable (∃ p ∈ points, _))

instance (points : List (Point Float)) : Decidable (ThreeApart points) :=
  inferInstanceAs (Decidable (∃ p ∈ points, _))

section Ring

variable {first : Point Float} {corners : List (Point Float)}

/-- A vertex of a ring is on the first one or among the others. -/
theorem mem_ring {p : Point Float} : p ∈ first :: corners ++ [first] ↔ p = first ∨ p ∈ corners := by
  simp only [List.cons_append, List.mem_cons, List.mem_append, List.not_mem_nil, or_false]
  tauto

theorem twoApart_ring (hne : corners ≠ []) (haway : ∀ q ∈ corners, (first == q) = false) :
    TwoApart (first :: corners ++ [first]) := by
  obtain ⟨q, hq⟩ := List.exists_mem_of_ne_nil corners hne
  exact ⟨first, mem_ring.2 (.inl rfl), q, mem_ring.2 (.inr hq), haway q hq⟩

/-- Of three different vertices one at most is the first, so two others differ. With two others that
differ the first makes three. -/
theorem threeApart_ring (hself : (first == first) = true)
    (haway : ∀ q ∈ corners, (first == q) = false) :
    ThreeApart (first :: corners ++ [first]) ↔ TwoApart corners := by
  constructor
  · rintro ⟨p, hp, q, hq, r, hr, hpq, hqr, hpr⟩
    have hfirst : ∀ {a b : Point Float}, a = first → b = first → (a == b) = false → False := by
      rintro a b rfl rfl h
      rw [hself] at h
      cases h
    rcases mem_ring.1 hp with hp | hp
    · have hq' := (mem_ring.1 hq).resolve_left fun h => hfirst hp h hpq
      have hr' := (mem_ring.1 hr).resolve_left fun h => hfirst hp h hpr
      exact ⟨q, hq', r, hr', hqr⟩
    · rcases mem_ring.1 hq with hq | hq
      · have hr' := (mem_ring.1 hr).resolve_left fun h => hfirst hq h hqr
        exact ⟨p, hp, r, hr', hpr⟩
      · exact ⟨p, hp, q, hq, hpq⟩
  · rintro ⟨q, hq, r, hr, hqr⟩
    exact ⟨first, mem_ring.2 (.inl rfl), q, mem_ring.2 (.inr hq), r, mem_ring.2 (.inr hr), haway q hq,
      hqr, haway r hr⟩

end Ring

/-! ### Polygons that a click closes -/

/-- What is committed as a closed polygon has been closed by a click on the first vertex. It has three
clicks or more for its vertices, two different vertices, and three if the clicks beside the first vertex
were not all at one place. -/
theorem Ending.corners {first : Point Float} {clicked : List (Point Float)} {style : Style}
    {filled : Bool} {closing : Prop} {shape : Shape Float}
    (h : Ending (outline first clicked) style filled closing shape)
    (hself : closing → (first == first) = true) (hclosed : shape.geometry.isClosed = true) :
    let corners := clicked.filter fun q => !(first == q)
    closing ∧ shape.geometry.vertices = first :: corners ++ [first] ∧ 2 ≤ corners.length ∧
      TwoApart shape.geometry.vertices ∧
      (ThreeApart shape.geometry.vertices ↔ TwoApart corners) := by
  intro corners
  have haway : ∀ q ∈ corners, (first == q) = false := fun q hq => by
    simpa using (List.mem_filter.1 hq).2
  cases h with
  | line hvertices hgeometry =>
    rw [hgeometry] at hclosed
    cases hclosed
  | path hopen hlength hgeometry hnot =>
    rw [hnot] at hclosed
    cases hclosed
  | ring hclosing hvertices hlength hgeometry =>
    obtain ⟨rfl, rfl⟩ := List.cons.inj hvertices
    have htwo : 2 ≤ corners.length := Nat.le_of_succ_le_succ hlength
    have hne : corners ≠ [] := by
      rintro hnil
      rw [hnil] at htwo
      cases htwo
    have hring : shape.geometry.vertices = first :: corners ++ [first] := by
      rw [hgeometry]
      rfl
    rw [hring]
    exact ⟨hclosing, rfl, htwo, twoApart_ring hne haway, threeApart_ring (hself hclosing) haway⟩

section Run

variable {before since ops : List Operation} {first frame : Frame} {found : Shape Float} {index : Nat}
  {kind : Kind}

/-- What a frame commits of a polyline that was being made. -/
theorem Begun.ending (hbegun : Begun .polyline before first since)
    (hmode : (run (before ++ .tick first :: since)).session.mode = .polyline)
    (hediting : (run (before ++ .tick first :: since)).session.editing = some found)
    (hcommitted : .shapeCommitted index kind ∈
      (tick frame (run (before ++ .tick first :: since)).session).2) :
    let s := (run (before ++ .tick first :: since)).session
    let p := (run (before ++ [.tick first])).session.pointer
    ∃ shape, s.Commits frame shape ∧ kind = shape.kind ∧
      Ending (outline p (clicks (before ++ [.tick first]) (since ++ [.tick frame])))
        (run before).session.settings.strokeStyle s.settings.filled
        (frame.primary.pressed = true ∧ (p == s.snapped frame) = true) shape := by
  intro s p
  have hdrag := drag_run_eq_none (before ++ .tick first :: since) (by simp [hmode])
  obtain ⟨htraces, -⟩ := hbegun.traces hmode hediting
  obtain ⟨shape, hcommits, hending, -, hkind⟩ :=
    (outcome_traces hmode hdrag hediting htraces).exists_commits hcommitted
  refine ⟨shape, hcommits, hkind, ?_⟩
  rw [clicks_concat, List.append_assoc, List.singleton_append]
  simpa [Operation.clicked?, hcommits.1, apply_ite Option.toList] using hending

/-- What a frame commits in polyline mode that is closed, the frame has closed by a click on the first
vertex. Its vertices are the places of the clicks, of which there were three or more. They are at two
places at least, and at three if and only if those that are not on the first vertex are not all at one
place. -/
theorem exists_ring_corners (hmode : (run ops).session.mode = .polyline)
    (hcommitted : .shapeCommitted index kind ∈ (tick frame (run ops).session).2) :
    ∃ before first since shape, ops ++ [.tick frame] = before ++ .tick first :: since ∧
      Begun .polyline before first since ∧ (run ops).session.Commits frame shape ∧
      kind = shape.kind ∧
      let p := (run (before ++ [.tick first])).session.pointer
      let corners := (clicks (before ++ [.tick first]) since).filter fun q => !(p == q)
      shape.geometry.isClosed = true →
        (frame.primary.pressed = true ∧
          (p == (run (ops ++ [.tick frame])).session.pointer) = true) ∧
        shape.geometry.vertices = p :: corners ++ [p] ∧ 2 ≤ corners.length ∧
        TwoApart shape.geometry.vertices ∧
        (ThreeApart shape.geometry.vertices ↔ TwoApart corners) := by
  cases hediting : (run ops).session.editing with
  -- Of a polyline that the frame has begun itself nothing is committed.
  | none =>
    obtain ⟨-, hpressed⟩ := Session.click_of_committed hediting hcommitted
    have hdrag := drag_run_eq_none ops (by simp [hmode])
    obtain ⟨shape, -, hnone, -⟩ :=
      (outcome_traces_click hmode hdrag hediting hpressed).exists_commits hcommitted
    exact hnone.elim
  | some found =>
    have hmaking : (run ops).session.editing.isSome = true := by rw [hediting]; rfl
    obtain ⟨before, first, since, rfl, hbegun⟩ := exists_begun (by decide) hmode hmaking
    obtain ⟨shape, hcommits, hkind, hending⟩ := hbegun.ending hmode hediting hcommitted
    refine ⟨before, first, since ++ [.tick frame], shape, by simp,
      .later _ hbegun hmode hmaking, hcommits, hkind, ?_⟩
    rw [pointer_run_tick (before ++ .tick first :: since)]
    exact hending.corners fun hclosing => Point.beq_self_of_beq hclosing.2

/-- A triangle one of whose corners was clicked twice. -/
theorem exists_ring_corners_triangle :
    let ops : List Operation := [.setMode .polyline, .tick (Session.clickAt ⟨0, 0⟩),
      .tick (Session.clickAt ⟨2, 0⟩), .tick (Session.clickAt ⟨2, 0⟩),
      .tick (Session.clickAt ⟨2, 2⟩)]
    let frame := Session.clickAt ⟨0, 0⟩
    (run ops).session.mode = .polyline ∧
      .shapeCommitted 0 .polyline ∈ (tick frame (run ops).session).2 ∧
      ∃ shape, (tick frame (run ops).session).1.diagram = (run ops).session.diagram.push shape ∧
        shape.geometry.isClosed = true ∧ ThreeApart shape.geometry.vertices ∧
        ∃ p corners, shape.geometry.vertices = p :: corners ++ [p] ∧ TwoApart corners := by
  intro ops frame
  have hmode : (run ops).session.mode = .polyline := by decide +kernel
  have hcommitted : .shapeCommitted 0 .polyline ∈ (tick frame (run ops).session).2 := by
    decide +kernel
  obtain ⟨before, first, since, shape, -, -, hcommits, -, hcorners⟩ :=
    exists_ring_corners hmode hcommitted
  have hpushed := hcommits.diagram_tick (by decide) (by decide)
  have htop : ((tick frame (run ops).session).1.diagram.shapes.getLast?.all fun shape =>
      shape.geometry.isClosed && decide (ThreeApart shape.geometry.vertices)) = true := by
    decide +kernel
  rw [hpushed, Diagram.push, List.getLast?_concat, Option.all_some, Bool.and_eq_true,
    decide_eq_true_eq] at htop
  obtain ⟨hclosed, hthree⟩ := htop
  obtain ⟨-, hvertices, -, -, hiff⟩ := hcorners hclosed
  exact ⟨hmode, hcommitted, shape, hpushed, hclosed, hthree, _, _, hvertices, hiff.1 hthree⟩

/-- A click, two clicks at another place and one on the first vertex again: the polygon is closed and has
two different vertices. -/
theorem ring_of_two_places :
    let ops : List Operation := [.setMode .polyline, .tick (Session.clickAt ⟨0, 0⟩),
      .tick (Session.clickAt ⟨2, 0⟩), .tick (Session.clickAt ⟨2, 0⟩)]
    let frame := Session.clickAt ⟨0, 0⟩
    (∀ f, .tick f ∈ ops ++ [.tick frame] → f.pointer.IsFinite) ∧
      (run ops).session.mode = .polyline ∧
      .shapeCommitted 0 .polyline ∈ (tick frame (run ops).session).2 ∧
      ∃ shape, (tick frame (run ops).session).1.diagram.shapes = [shape] ∧
        shape.geometry.isClosed = true ∧ ¬ ThreeApart shape.geometry.vertices := by
  intro ops frame
  refine ⟨fun f hf => ?_, by decide +kernel, by decide +kernel, ?_⟩
  · simp only [ops, List.cons_append, List.nil_append, List.mem_cons, reduceCtorEq,
      Operation.tick.injEq, List.not_mem_nil, false_or, or_false] at hf
    rcases hf with rfl | rfl | rfl | rfl <;> decide +kernel
  · have hsingle : (tick frame (run ops).session).1.diagram.shapes.length = 1 := by decide +kernel
    have htop : ((tick frame (run ops).session).1.diagram.shapes.all fun shape =>
        shape.geometry.isClosed && !decide (ThreeApart shape.geometry.vertices)) = true := by
      decide +kernel
    obtain ⟨shape, hshapes⟩ := List.length_eq_one_iff.1 hsingle
    rw [hshapes, List.all_cons, List.all_nil, Bool.and_true, Bool.and_eq_true, Bool.not_eq_true',
      decide_eq_false_iff_not] at htop
    exact ⟨shape, hshapes, htop⟩

end Run

end Draftboard
