import Draftboard.Shape.Handle

/-!
# Draftboard.Proofs.Shape.Points

The points of a shape, and what a drag does to them.

* A geometry has its points in a list (`Geometry.points`), and a handle names one of them by its position
  (`Geometry.place?`): the first one, the last one, or a control point of a curve. A label has no last
  point, and a polyline without vertices has neither.
* A drag replaces the named point and no other (`Geometry.Moved`), and says so. The ends can be dragged
  on any shape, so a drag of an end that is not there says so as well, and drops what is derived from the
  geometry, though nothing has moved (`Shape.drag_moves_named_point`).
-/

namespace Draftboard

variable {α : Type}

namespace Geometry

/-! ### Points and texts -/

/-- The points of a geometry, from the start to the end. -/
def points : Geometry α → List (Point α)
  | line start stop => [start, stop]
  | circle center rim => [center, rim]
  | polyline vertices => vertices
  | curve start controls stop => start :: controls ++ [stop]
  | label anchor _ => [anchor]

/-- The geometry is a label with this text. -/
def Says (g : Geometry α) (text : String) : Prop := ∃ anchor, g = label anchor text

/-- The position of the point that a handle names, if there is such a point. -/
def place? (g : Geometry α) : Handle → Option Nat
  | .start => if g.points.isEmpty then none else some 0
  | .stop => if g.points.isEmpty ∨ g.kind = .label then none else some (g.points.length - 1)
  | .control index =>
    if g.kind = .curve ∧ index + 2 < g.points.length then some (index + 1) else none

/-- The second geometry is the first one with the point at position `i` moved to `p`. -/
structure Moved (g g' : Geometry α) (i : Nat) (p : Point α) : Prop where
  kind_eq : g'.kind = g.kind
  lt : i < g.points.length
  points_eq : g'.points = g.points.set i p
  says_iff : ∀ text, g'.Says text ↔ g.Says text

/-! ### Setting an end -/

theorem eq_polyline_nil_of_isEmpty {g : Geometry α} (h : g.points.isEmpty = true) :
    g = polyline [] := by
  cases g with
  | polyline vertices =>
    obtain rfl : vertices = [] := List.isEmpty_iff.1 h
    rfl
  | _ => cases h

theorem points_setStart (p : Point α) (g : Geometry α) :
    (g.setStart p).points = g.points.set 0 p := by
  cases g with
  | polyline vertices => cases vertices <;> rfl
  | _ => rfl

/-- Every geometry but a label has its end at the last point. -/
theorem points_setStop (p : Point α) {g : Geometry α} (h : g.kind ≠ .label) :
    (g.setStop p).points = g.points.set (g.points.length - 1) p := by
  cases g with
  | line | circle => rfl
  | polyline vertices =>
    rcases List.eq_nil_or_concat vertices with rfl | ⟨init, last, rfl⟩
    · rfl
    · simp [setStop, points]
  | curve start controls stop => simp [setStop, points]
  | label => exact absurd rfl h

theorem says_setStart_iff (p : Point α) (g : Geometry α) (text : String) :
    (g.setStart p).Says text ↔ g.Says text := by
  cases g with
  | polyline vertices => cases vertices <;> simp [setStart, Says]
  | _ => simp [setStart, Says]

theorem says_setStop_iff (p : Point α) (g : Geometry α) (text : String) :
    (g.setStop p).Says text ↔ g.Says text := by
  cases g <;> simp [setStop, Says]

/-- Setting the start moves the point that the start names. -/
theorem moved_setStart (p : Point α) {g : Geometry α} {i : Nat} (h : g.place? .start = some i) :
    g.Moved (g.setStart p) i p := by
  obtain ⟨hsome, hi⟩ := Option.ite_none_left_eq_some.1 h
  obtain rfl := Option.some.inj hi
  have hlength : 0 < g.points.length := List.length_pos_iff.2 (mt List.isEmpty_iff.2 hsome)
  exact ⟨kind_setStart p g, hlength, points_setStart p g, says_setStart_iff p g⟩

/-- Setting the end moves the point that the end names. -/
theorem moved_setStop (p : Point α) {g : Geometry α} {i : Nat} (h : g.place? .stop = some i) :
    g.Moved (g.setStop p) i p := by
  obtain ⟨hsome, hi⟩ := Option.ite_none_left_eq_some.1 h
  obtain rfl := Option.some.inj hi
  rw [not_or] at hsome
  have hlength : 0 < g.points.length := List.length_pos_iff.2 (mt List.isEmpty_iff.2 hsome.1)
  exact ⟨kind_setStop p g, by omega, points_setStop p hsome.2, says_setStop_iff p g⟩

/-- The start is missing from a polyline without vertices only. -/
theorem place?_start_eq_none_iff {g : Geometry α} : g.place? .start = none ↔ g = polyline [] := by
  constructor
  · intro h
    by_cases hempty : g.points.isEmpty = true
    · exact eq_polyline_nil_of_isEmpty hempty
    · rw [place?, if_neg hempty] at h
      cases h
  · intro h
    rw [h]
    rfl

/-- The end is missing from a polyline without vertices, and from every label. -/
theorem place?_stop_eq_none_iff {g : Geometry α} :
    g.place? .stop = none ↔ g = polyline [] ∨ g.kind = .label := by
  constructor
  · intro h
    by_cases hmissing : g.points.isEmpty ∨ g.kind = .label
    · exact hmissing.imp_left eq_polyline_nil_of_isEmpty
    · rw [place?, if_neg hmissing] at h
      cases h
  · intro h
    refine if_pos (h.imp_left fun hempty => ?_)
    rw [hempty]
    rfl

/-- Setting an end that is not there changes nothing. -/
theorem setStart_of_place? (p : Point α) {g : Geometry α} (h : g.place? .start = none) :
    g.setStart p = g := by
  rw [place?_start_eq_none_iff.1 h]
  rfl

theorem setStop_of_place? (p : Point α) {g : Geometry α} (h : g.place? .stop = none) :
    g.setStop p = g := by
  rcases place?_stop_eq_none_iff.1 h with rfl | hlabel
  · rfl
  · cases g with
    | label => rfl
    | _ => cases hlabel

end Geometry

namespace Shape

/-! ### Dragging -/

/-- A control point is set if the shape is a curve that has it. -/
theorem setControl?_eq (s : Shape α) (index : Nat) (p : Point α) :
    s.setControl? index p = none ∧ s.geometry.place? (.control index) = none ∨
      ∃ g, s.setControl? index p = some (s.withGeometry g) ∧
        s.geometry.place? (.control index) = some (index + 1) ∧
        s.geometry.Moved g (index + 1) p := by
  rw [setControl?]
  split
  · rename_i start controls stop hcurve
    rw [hcurve]
    split
    · rename_i hindex
      have hmoved : start :: controls.set index p ++ [stop] =
          (start :: controls ++ [stop]).set (index + 1) p := by
        simp [List.set_append_left _ _ hindex]
      exact .inr ⟨_, rfl, by simp [Geometry.place?, Geometry.kind, Geometry.points, hindex],
        ⟨rfl, by simp [Geometry.points]; omega, hmoved, by simp [Geometry.Says]⟩⟩
    · rename_i hindex
      exact .inl ⟨rfl, by simp [Geometry.place?, Geometry.points]; omega⟩
  · rename_i hother
    refine .inl ⟨rfl, if_neg fun h => ?_⟩
    cases hgeometry : s.geometry with
    | curve start controls stop => exact hother start controls stop hgeometry
    | _ =>
      rw [hgeometry] at h
      cases h.1

/-- What a drag answers, and the shape that it leaves. -/
def dragged (s : Shape α) (p : Point α) (target : Option Handle) : Bool × Shape α :=
  ((s.drag? p target).isSome, (s.drag? p target).getD s)

/-- A drag moves the point that its target names, and nothing else of the shape. An end that is not there
is dragged all the same: the answer is that of a drag that moves something, and what is derived from
the geometry is dropped, while the geometry and the style stay. Any other drag of nothing is refused
and leaves the shape as it is. -/
theorem drag_moves_named_point (s : Shape α) (p : Point α) (target : Option Handle) :
    (∀ i, target.bind s.geometry.place? = some i →
      (s.dragged p target).1 = true ∧ s.geometry.Moved (s.dragged p target).2.geometry i p ∧
        (s.dragged p target).2.style = s.style) ∧
    (target.bind s.geometry.place? = none →
      s.dragged p target =
        if target = some .start ∨ target = some .stop then
          (true, { s with fan := none, raster := if s.kind = .label then s.raster else none })
        else (false, s)) := by
  rcases target with _ | _ | _ | index
  case none => exact ⟨nofun, fun _ => rfl⟩
  case some.start =>
    refine ⟨fun i h => ⟨rfl, Geometry.moved_setStart p h, rfl⟩, fun h => ?_⟩
    rw [dragged, drag?, setStart, Geometry.setStart_of_place? p h]
    rfl
  case some.stop =>
    refine ⟨fun i h => ⟨rfl, Geometry.moved_setStop p h, rfl⟩, fun h => ?_⟩
    rw [dragged, drag?, setStop, Geometry.setStop_of_place? p h]
    rfl
  case some.control =>
    obtain ⟨hrefused, hplace⟩ | ⟨g, hset, hplace, hmoved⟩ := s.setControl?_eq index p
    · refine ⟨fun i h => ?_, fun _ => ?_⟩
      · rw [Option.bind_some, hplace] at h
        cases h
      · rw [dragged, drag?, hrefused]
        rfl
    · refine ⟨fun i h => ?_, fun h => ?_⟩
      · rw [Option.bind_some, hplace] at h
        obtain rfl := Option.some.inj h
        rw [dragged, drag?, hset]
        exact ⟨rfl, hmoved, rfl⟩
      · rw [Option.bind_some, hplace] at h
        cases h

/-- The end of a label, and both ends of a polyline without vertices: nothing is moved, and the drag says
that something is. An image that was put on the polyline is gone. -/
theorem drag_answers_without_point :
    let label : Shape Float := { geometry := .label ⟨0, 0⟩ "x" }
    let ring : Shape Float := { geometry := .polyline [], raster := some 7 }
    (label.geometry.place? .stop = none ∧ (label.dragged ⟨1, 1⟩ (some .stop)).1 = true ∧
        (label.dragged ⟨1, 1⟩ (some .stop)).2.geometry = label.geometry) ∧
      (ring.geometry.place? .start = none ∧ ring.geometry.place? .stop = none) ∧
      ∀ handle ∈ [Handle.start, .stop], (ring.dragged ⟨1, 1⟩ (some handle)).1 = true ∧
        (ring.dragged ⟨1, 1⟩ (some handle)).2.geometry = ring.geometry ∧
        (ring.dragged ⟨1, 1⟩ (some handle)).2.raster = none :=
  ⟨⟨rfl, rfl, rfl⟩, ⟨rfl, rfl⟩,
    List.forall_mem_cons.2 ⟨⟨rfl, rfl, rfl⟩, List.forall_mem_singleton.2 ⟨rfl, rfl, rfl⟩⟩⟩

end Shape

end Draftboard
