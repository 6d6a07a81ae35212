import Draftboard.Proofs.Authoring.Begun
import Draftboard.Proofs.Number.Equality

/-!
# Draftboard.Proofs.Authoring.Polyline

Polylines and polygons, which are made click by click.

* The vertices of a polyline that is being made are the places of the clicks since it was begun, less
  those on the first vertex (`outline`). A click on the first vertex adds nothing while there are less
  than three vertices; with three, it would have closed the polygon (`Unclosed`).
* What is made of the vertices in the end is a line, an open polyline or a closed polygon, and of one
  vertex nothing (`Ending`).
* `outcome_traces` says so of one frame, `Begun.traces` of all frames since the first click, and
  `traces_and_ending` of whole runs.
-/

namespace Draftboard

open Session (tick Outcome)

/-! ### The vertices and what becomes of them -/

/-- The vertices that clicks make: the first one, and all that are not on it. -/
def outline (first : Point Float) (clicked : List (Point Float)) : List (Point Float) :=
  first :: clicked.filter fun p => !(first == p)

/-- No click on the first vertex has closed the polygon: each came when there were less than three
vertices. -/
def Unclosed (first : Point Float) (clicked : List (Point Float)) : Prop :=
  ∀ earlier p later, clicked = earlier ++ p :: later → (first == p) = true →
    (outline first earlier).length < 3

/-- A polyline through the vertices. -/
structure Traces (vertices : List (Point Float)) (style : Style) (shape : Shape Float) : Prop where
  geometry_eq : shape.geometry = .polyline vertices
  style_eq : shape.style = style

/-- What is committed of vertices in a style: a closed polygon, with the given fill, if the click on
the first vertex was the last, and otherwise a line or an open polyline, which are not filled. -/
inductive Ending (vertices : List (Point Float)) (style : Style) (filled : Bool) (closing : Prop)
    (shape : Shape Float) : Prop
  | line {a b : Point Float} (hvertices : vertices = [a, b]) (hgeometry : shape.geometry = .line a b)
      (hstyle : shape.style = style) (hunfilled : shape.style.filled = false)
  | path (hopen : ¬ closing) (hlength : 3 ≤ vertices.length)
      (hgeometry : shape.geometry = .polyline vertices) (hclosed : shape.geometry.isClosed = false)
      (hstyle : shape.style = style) (hunfilled : shape.style.filled = false)
  | ring {first : Point Float} {rest : List (Point Float)} (hclosing : closing)
      (hvertices : vertices = first :: rest) (hlength : 3 ≤ vertices.length)
      (hgeometry : shape.geometry = .polyline (first :: rest ++ [first]))
      (hclosed : shape.geometry.isClosed = true)
      (hstyle : shape.style = { style with frontArrow := false, backArrow := false, filled := filled })

section Outline

variable {first p : Point Float} {clicked : List (Point Float)}

theorem outline_concat_of_ne (h : (first == p) = false) (clicked : List (Point Float)) :
    outline first (clicked ++ [p]) = outline first clicked ++ [p] := by
  simp [outline, List.filter_append, h]

theorem outline_concat_of_beq (h : (first == p) = true) (clicked : List (Point Float)) :
    outline first (clicked ++ [p]) = outline first clicked := by
  simp [outline, List.filter_append, h]

/-- The last vertex of an open polyline is not the first one. -/
theorem isClosed_outline (first : Point Float) (clicked : List (Point Float)) :
    (Geometry.polyline (outline first clicked)).isClosed = false := by
  have hne : ∀ p ∈ clicked.filter fun p => !(first == p), (first == p) = false := fun p hp => by
    simpa using (List.mem_filter.1 hp).2
  unfold outline Geometry.isClosed
  generalize clicked.filter (fun p => !(first == p)) = rest at hne
  cases hlast : rest.getLast? with
  | none => simp [List.getLast?_eq_none_iff.1 hlast]
  | some p =>
    have hsame : (some first == some p) = false := hne p (List.mem_of_getLast? hlast)
    simp [List.getLast?_cons, hlast, hsame]

theorem isClosed_ring (hfirst : (first == first) = true) {rest : List (Point Float)}
    (hlength : 3 ≤ (first :: rest).length) :
    (Geometry.polyline (first :: rest ++ [first])).isClosed = true := by
  have hsame : (some first == some first) = true := hfirst
  simp only [Geometry.isClosed, List.cons_append, List.head?_cons, List.getLast?_cons,
    List.getLast?_concat, Option.getD_some, hsame, Bool.and_true, decide_eq_true_eq]
  simp at hlength ⊢
  omega

theorem unclosed_nil (first : Point Float) : Unclosed first [] :=
  fun _ _ _ h => absurd h (by simp)

theorem Unclosed.concat (h : Unclosed first clicked)
    (hp : (first == p) = true → (outline first clicked).length < 3) :
    Unclosed first (clicked ++ [p]) := by
  intro earlier q later hcut hq
  rcases List.eq_nil_or_concat later with rfl | ⟨later, r, rfl⟩
  · obtain ⟨rfl, hsame⟩ := List.append_inj' hcut rfl
    obtain rfl : p = q := by simpa using hsame
    exact hp hq
  · rw [List.concat_eq_append, ← List.cons_append, ← List.append_assoc] at hcut
    exact h earlier q later (List.append_inj' hcut rfl).1 hq

end Outline

/-! ### One frame -/

section Frame

variable {s : Session} {frame : Frame} {shape found : Shape Float} {first : Point Float}
  {clicked : List (Point Float)} {settings : Settings} {filled : Bool} {closing : Prop}
  {Made : Shape Float → Prop}

/-- A polyline is ended where it is: as a line, as an open polyline, or not at all. -/
theorem outcome_finishPolyline (hshape : Traces (outline first clicked) settings.strokeStyle shape)
    (hopen : closing → (outline first clicked).length < 3) :
    Outcome s Made (Ending (outline first clicked) settings.strokeStyle filled closing)
      (Session.finishPolyline { s with editing := some shape }) := by
  have hvertices : shape.geometry.vertices = outline first clicked := by
    rw [hshape.geometry_eq]
    rfl
  unfold Session.finishPolyline
  dsimp only
  split
  · rename_i a b hpair
    exact .committed (.line (hvertices ▸ hpair) rfl hshape.style_eq (hshape.style_eq ▸ rfl))
  · rename_i a b c rest hlong
    have hlength : 3 ≤ (outline first clicked).length := by
      rw [← hvertices, hlong]
      simp
    refine .committed (.path (fun h => absurd (hopen h) (by omega)) hlength hshape.geometry_eq ?_
      hshape.style_eq (hshape.style_eq ▸ rfl))
    rw [hshape.geometry_eq]
    exact isClosed_outline first clicked
  · exact .givenUp rfl rfl

/-- A polygon is closed on its first vertex. -/
theorem outcome_closePolygon (hshape : Traces (outline first clicked) settings.strokeStyle shape)
    (hfirst : (first == first) = true) (hlength : 3 ≤ (outline first clicked).length)
    (hclosing : closing) :
    Outcome s Made (Ending (outline first clicked) settings.strokeStyle s.settings.filled closing)
      (Session.closePolygon { s with editing := some shape }) := by
  obtain ⟨geometry, style, fan, raster⟩ := shape
  obtain rfl : geometry = _ := hshape.geometry_eq
  obtain rfl : style = settings.strokeStyle := hshape.style_eq
  exact .committed (.ring hclosing rfl hlength rfl (isClosed_ring hfirst hlength) rfl)

/-- A click adds a vertex, or it is on the first vertex and ignored, or it closes the polygon. -/
theorem outcome_extendPolyline (hshape : Traces (outline first clicked) settings.strokeStyle shape)
    (hclosing : closing ↔ (first == s.pointer) = true) :
    Outcome s
      (fun shape => Traces (outline first (clicked ++ [s.pointer])) settings.strokeStyle shape ∧
        (closing → (outline first clicked).length < 3))
      (Ending (outline first (clicked ++ [s.pointer])) settings.strokeStyle s.settings.filled closing)
      (Session.extendPolyline shape { s with editing := some shape }) := by
  have hvertices : shape.geometry.vertices = outline first clicked := by
    rw [hshape.geometry_eq]
    rfl
  have hhead : (shape.geometry.vertices.head? == some s.pointer) = (first == s.pointer) := by
    rw [hvertices]
    rfl
  unfold Session.extendPolyline
  dsimp only
  rw [hhead]
  split
  · rename_i hbeq
    rw [outline_concat_of_beq hbeq, hvertices]
    split
    · rename_i hlength
      exact outcome_closePolygon hshape (Point.beq_self_of_beq hbeq) hlength (hclosing.2 hbeq)
    · rename_i hlength
      exact .made ⟨hshape, fun _ => by omega⟩
  · rename_i hbeq
    rw [outline_concat_of_ne (by simpa using hbeq)]
    refine .made ⟨?_, fun h => absurd (hclosing.1 h) hbeq⟩
    obtain ⟨geometry, style, fan, raster⟩ := shape
    obtain rfl : geometry = _ := hshape.geometry_eq
    exact ⟨rfl, hshape.style_eq⟩

theorem primaryClick_of_polyline (hmode : s.mode = .polyline) :
    Session.primaryClick { s with editing := some shape } =
      Session.extendPolyline shape { s with editing := some shape } := by
  obtain ⟨diagram, settings, camera, viewport, mode, editing, drag, pointer⟩ := s
  obtain rfl : mode = .polyline := hmode
  rfl

theorem secondaryClick_of_polyline (hmode : s.mode = .polyline) (editing : Option (Shape Float)) :
    Session.secondaryClick { s with editing } = Session.finishPolyline { s with editing } := by
  unfold Session.secondaryClick
  rw [hmode]

/-- A primary click goes on with the polyline, a secondary click ends it. -/
theorem outcome_applyButtons_polyline {p : Point Float} (hmode : s.mode = .polyline)
    (hpointer : s.pointer = p) (hfilled : s.settings.filled = filled)
    (hshape : Traces (outline first clicked) settings.strokeStyle shape) (frame : Frame) :
    let closing := frame.primary.pressed = true ∧ (first == p) = true
    let clicked' := clicked ++ if frame.primary.pressed then [p] else []
    Outcome s
      (fun shape => Traces (outline first clicked') settings.strokeStyle shape ∧
        (closing → (outline first clicked).length < 3))
      (Ending (outline first clicked') settings.strokeStyle filled closing)
      (Session.applyButtons frame { s with editing := some shape }) := by
  subst hpointer hfilled
  intro closing clicked'
  unfold Session.applyButtons
  split
  · rename_i hpressed
    have hclicked : clicked' = clicked ++ [s.pointer] := by simp [clicked', hpressed]
    rw [primaryClick_of_polyline hmode, hclicked]
    exact outcome_extendPolyline hshape (and_iff_right hpressed)
  · rename_i hpressed
    have hclicked : clicked' = clicked := by simp [clicked', hpressed]
    have hopen : closing → (outline first clicked).length < 3 := fun h => absurd h.1 hpressed
    rw [hclicked]
    split
    · rw [secondaryClick_of_polyline hmode]
      exact outcome_finishPolyline hshape hopen
    · exact .made ⟨hshape, hopen⟩

theorem commitKey_of_polyline (hmode : s.mode = .polyline) (editing : Option (Shape Float)) :
    Session.commitKey { s with editing } = Session.finishPolyline { s with editing } := by
  unfold Session.commitKey
  rw [hmode]

/-- What a frame makes of a polyline. -/
theorem outcome_traces (hmode : s.mode = .polyline) (hdrag : s.drag = none)
    (hediting : s.editing = some found)
    (hfound : Traces (outline first clicked) settings.strokeStyle found) :
    let closing := frame.primary.pressed = true ∧ (first == s.snapped frame) = true
    let clicked' := clicked ++ if frame.primary.pressed then [s.snapped frame] else []
    Outcome (s.heard frame)
      (fun shape => Traces (outline first clicked') settings.strokeStyle shape ∧
        (closing → (outline first clicked).length < 3))
      (Ending (outline first clicked') settings.strokeStyle s.settings.filled closing)
      (s.draws frame) := by
  intro closing clicked'
  have hheard : (s.heard frame).mode = .polyline := by simpa using hmode
  have hself := Session.heard_eq_of_editing hediting frame
  have hbuttons := outcome_applyButtons_polyline hheard (s.pointer_heard frame)
    (s.filled_heard frame) hfound frame
  have hfollow := Session.followPointer_of_mode (.inl hheard)
  refine Session.outcome_draws (by simp [hmode]) hdrag ?_ hbuttons
    fun shape hshape hkey => ?_
  · rw [Transition.guarded_of_quiet hfollow, ← hself]
  · rw [commitKey_of_polyline hheard]
    refine outcome_finishPolyline hshape.1 fun h => ?_
    -- A click on the first vertex has added nothing.
    have hsame : outline first clicked' = outline first clicked := by
      simp only [clicked', h.1, if_true]
      exact outline_concat_of_beq h.2 clicked
    rw [hsame]
    exact hshape.2 h

/-- What a frame makes that begins a polyline: one vertex, of which the commit key makes nothing. -/
theorem outcome_traces_click (hmode : s.mode = .polyline) (hdrag : s.drag = none)
    (hidle : s.editing = none) (hpressed : frame.primary.pressed = true) :
    Outcome (s.heard frame)
      (Traces (outline (s.snapped frame) []) s.settings.strokeStyle) (fun _ => False)
      (s.draws frame) := by
  have hheard : (s.heard frame).mode = .polyline := by simpa using hmode
  have hclick : Session.primaryClick (s.heard frame) = ({ s.heard frame with
      editing := some (.mk (.polyline [(s.heard frame).pointer]) (s.heard frame).settings.strokeStyle
        none none) }, []) := by
    have hnone := (s.editing_heard frame).trans hidle
    generalize s.heard frame = t at hheard hnone
    obtain ⟨diagram, settings, camera, viewport, mode, editing, drag, pointer⟩ := t
    obtain rfl : editing = none := hnone
    subst hheard
    rfl
  refine Session.outcome_draws_click hidle (by simp [hmode]) hdrag hpressed ?_
    fun shape hshape _ => ?_
  · rw [hclick]
    exact .made ⟨by rw [s.pointer_heard]; rfl, s.strokeStyle_heard frame⟩
  · obtain ⟨geometry, style, fan, raster⟩ := shape
    obtain rfl : geometry = _ := hshape.geometry_eq
    rw [commitKey_of_polyline hheard]
    exact .givenUp rfl rfl

end Frame

/-! ### Runs -/

section Run

variable {before since ops : List Operation} {first : Frame} {shape : Shape Float}

/-- The vertices of the polyline that is being made are the places of the clicks since it was begun,
less those on the first vertex, none of which came when there were three vertices. -/
theorem Begun.traces (hbegun : Begun .polyline before first since)
    (hmode : (run (before ++ .tick first :: since)).session.mode = .polyline)
    (hediting : (run (before ++ .tick first :: since)).session.editing = some shape) :
    let p := (run (before ++ [.tick first])).session.pointer
    let clicked := clicks (before ++ [.tick first]) since
    Traces (outline p clicked) (run before).session.settings.strokeStyle shape ∧
      Unclosed p clicked := by
  intro p
  have hp : p = (run before).session.snapped first := pointer_run_tick before first
  refine hbegun.induct (P := fun since shape =>
    let clicked := clicks (before ++ [.tick first]) since
    Traces (outline p clicked) (run before).session.settings.strokeStyle shape ∧
      Unclosed p clicked) ?_ ?_ ?_ (by decide) hmode hediting
  · intro shape hmode hidle hpressed hdrawn
    have hdrag := drag_run_eq_none before (by simp [hmode])
    refine ⟨?_, unclosed_nil p⟩
    rw [hp]
    exact (outcome_traces_click hmode hdrag hidle hpressed).of_editing hdrawn
  · rintro since frame found shape hmode hfound htyping ⟨htraces, hunclosed⟩ hdrawn
    have hdrag := drag_run_eq_none (before ++ .tick first :: since) (by simp [hmode])
    obtain ⟨hshape, hopen⟩ := (outcome_traces hmode hdrag hfound htraces).of_editing hdrawn
    rw [clicks_concat, List.append_assoc, List.singleton_append]
    cases hpressed : frame.primary.pressed with
    | true =>
      simp only [hpressed, if_true, true_and] at hshape hopen
      simp only [Operation.clicked?, htyping, hpressed, and_self, if_true, Option.toList_some]
      exact ⟨hshape, hunclosed.concat hopen⟩
    | false => simpa [Operation.clicked?, htyping, hpressed] using And.intro hshape hunclosed
  · rintro since op found shape hclicked - ⟨htraces, hunclosed⟩ hplain
    obtain ⟨fan, raster, rfl⟩ := Shape.derived_of_plain_eq hplain.symm
    rw [clicks_concat, List.append_assoc, List.singleton_append, hclicked, Option.toList_none,
      List.append_nil]
    exact ⟨⟨htraces.geometry_eq, htraces.style_eq⟩, hunclosed⟩

/-- What is made in polyline mode: while it is being made, a polyline whose vertices are the places of
the clicks, in the style of the settings at the first one; and when it is committed, a line or an open
polyline of these vertices, or a closed polygon that is filled as the settings say in the end. -/
theorem traces_and_ending (hmode : (run ops).session.mode = .polyline) :
    (∀ shape, (run ops).session.editing = some shape →
      ∃ before first since, ops = before ++ .tick first :: since ∧
        Begun .polyline before first since ∧
        let p := (run (before ++ [.tick first])).session.pointer
        let clicked := clicks (before ++ [.tick first]) since
        Traces (outline p clicked) (run before).session.settings.strokeStyle shape ∧
          Unclosed p clicked) ∧
    (∀ frame index kind, .shapeCommitted index kind ∈ (tick frame (run ops).session).2 →
      ∃ before first since shape, ops ++ [.tick frame] = before ++ .tick first :: since ∧
        Begun .polyline before first since ∧ (run ops).session.Commits frame shape ∧
        index = (run ops).session.diagram.size ∧ kind = shape.kind ∧
        let p := (run (before ++ [.tick first])).session.pointer
        Ending (outline p (clicks (before ++ [.tick first]) since))
          (run before).session.settings.strokeStyle (run ops).session.settings.filled
          (frame.primary.pressed = true ∧ (p == (run (ops ++ [.tick frame])).session.pointer) = true)
          shape) := by
  have hdrag := drag_run_eq_none ops (by simp [hmode])
  have hcut : ∀ shape, (run ops).session.editing = some shape → ∃ before first since,
      ops = before ++ .tick first :: since ∧ Begun .polyline before first since := fun shape h =>
    exists_begun (by decide) hmode (by rw [h]; rfl)
  constructor
  · intro shape hediting
    obtain ⟨before, first, since, rfl, hbegun⟩ := hcut shape hediting
    exact ⟨before, first, since, rfl, hbegun, hbegun.traces hmode hediting⟩
  · intro frame index kind hcommitted
    cases hediting : (run ops).session.editing with
    -- A click that begins a polyline leaves one vertex, of which nothing is committed.
    | none =>
      obtain ⟨-, hpressed⟩ := Session.click_of_committed hediting hcommitted
      obtain ⟨shape, -, hnone, -⟩ :=
        (outcome_traces_click hmode hdrag hediting hpressed).exists_commits hcommitted
      exact hnone.elim
    | some found =>
      obtain ⟨before, first, since, rfl, hbegun⟩ := hcut found hediting
      obtain ⟨htraces, -⟩ := hbegun.traces hmode hediting
      obtain ⟨shape, hcommits, hending, hindex, hkind⟩ :=
        (outcome_traces hmode hdrag hediting htraces).exists_commits hcommitted
      refine ⟨before, first, since ++ [.tick frame], shape, by simp,
        .later _ hbegun hmode (by rw [hediting]; rfl), hcommits, hindex, hkind, ?_⟩
      rw [clicks_concat, List.append_assoc, List.singleton_append,
        pointer_run_tick (before ++ .tick first :: since)]
      simpa [Operation.clicked?, hcommits.1, apply_ite Option.toList] using hending

/-- A triangle that is closed by the fourth click after an ignored one; what was switched on in
between shows in the fill only. -/
theorem traces_and_ending_triangle :
    let ops : List Operation := [.setMode .polyline, .tick (Session.clickAt ⟨0, 0⟩),
      .tick (Session.clickAt ⟨2, 0⟩), .tick (Session.clickAt ⟨0, 0⟩),
      .setSettings { filled := true, dashed := true }, .tick (Session.clickAt ⟨2, 2⟩)]
    let frame := Session.clickAt ⟨0, 0⟩
    (run ops).session.mode = .polyline ∧
      .shapeCommitted 0 .polyline ∈ (tick frame (run ops).session).2 ∧
      ∃ before first since shape, ops ++ [.tick frame] = before ++ .tick first :: since ∧
        (tick frame (run ops).session).1.diagram = (run ops).session.diagram.push shape ∧
        Ending (outline (run (before ++ [.tick first])).session.pointer
            (clicks (before ++ [.tick first]) since))
          (run before).session.settings.strokeStyle (run ops).session.settings.filled
          (frame.primary.pressed = true ∧ ((run (before ++ [.tick first])).session.pointer ==
            (run (ops ++ [.tick frame])).session.pointer) = true)
          shape := by
  intro ops frame
  have hmode : (run ops).session.mode = .polyline := by decide +kernel
  have hcommitted : .shapeCommitted 0 .polyline ∈ (tick frame (run ops).session).2 := by
    decide +kernel
  obtain ⟨before, first, since, shape, hcut, -, hcommits, -, -, hending⟩ :=
    (traces_and_ending hmode).2 frame 0 .polyline hcommitted
  have hpushed := hcommits.diagram_tick (by decide) (by decide)
  exact ⟨hmode, hcommitted, before, first, since, shape, hcut, hpushed, hending⟩

end Run

end Draftboard
