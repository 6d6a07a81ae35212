import Draftboard.Proofs.Authoring.Begun

/-!
# Draftboard.Proofs.Authoring.TwoPoint

Lines and circles, which are made of two points.

* A click begins a shape at the pointer. While it is being made, its second point is where the pointer
  was last seen to move, or beside the first one if it has not moved (`Begun.spans`).
* Whatever commits the shape first moves the second point to the pointer (`outcome_spans`). So a
  committed line or circle runs from the place of its first click to the place where it was committed,
  in the style of the settings at that click (`committed_spans`).
-/

namespace Draftboard

open Session (tick Outcome)

/-- A mode in which a shape is made of two points: what geometry they have, and which of the styles of
the settings it is drawn in. -/
inductive TwoPoint :
    Mode → (Point Float → Point Float → Geometry Float) → (Settings → Style) → Prop
  | line : TwoPoint .line .line Settings.strokeStyle
  | circle : TwoPoint .circle .circle Settings.fillStyle

/-- A shape of two points. -/
structure Spans (outline : Point Float → Point Float → Geometry Float) (p q : Point Float)
    (style : Style) (shape : Shape Float) : Prop where
  geometry_eq : shape.geometry = outline p q
  style_eq : shape.style = style

namespace TwoPoint

variable {m : Mode} {outline : Point Float → Point Float → Geometry Float} {style : Settings → Style}
  {s : Session} {frame : Frame} {shape found : Shape Float} {p q : Point Float} {σ : Style}

theorem mode_ne (h : TwoPoint m outline style) : m ≠ .curve ∧ m ≠ .droppedPolygon := by
  cases h <;> exact ⟨nofun, nofun⟩

/-- The style of a new shape is not changed by the keys of its frame. -/
theorem style_heard (h : TwoPoint m outline style) (s : Session) (frame : Frame) :
    style (s.heard frame).settings = style s.settings := by
  cases h with
  | line => exact s.strokeStyle_heard frame
  | circle => exact s.fillStyle_heard frame

/-- The second point of the shape is moved. -/
theorem spans_setStop (h : TwoPoint m outline style) (hshape : Spans outline p q σ shape)
    (r : Point Float) : Spans outline p r σ (shape.setStop r) := by
  refine ⟨?_, hshape.style_eq⟩
  show shape.geometry.setStop r = _
  rw [hshape.geometry_eq]
  cases h <;> rfl

/-! ### One frame -/

theorem followPointer_eq (h : TwoPoint m outline style) (hmode : s.mode = m) :
    Session.followPointer { s with editing := some shape } =
      ({ s with editing := some (shape.setStop s.pointer) }, []) := by
  obtain ⟨diagram, settings, camera, viewport, mode, editing, drag, pointer⟩ := s
  subst hmode
  cases h <;> rfl

/-- A click begins a shape at the pointer. -/
theorem primaryClick_eq (h : TwoPoint m outline style) (hmode : s.mode = m)
    (hidle : s.editing = none) :
    Session.primaryClick s = ({ s with
      editing := some (.mk (outline s.pointer (Session.freshEnd s.pointer)) (style s.settings)
        none none) }, []) := by
  obtain ⟨diagram, settings, camera, viewport, mode, editing, drag, pointer⟩ := s
  obtain rfl : editing = none := hidle
  subst hmode
  cases h <;> rfl

theorem commitKey_eq (h : TwoPoint m outline style) (hmode : s.mode = m) :
    Session.commitKey { s with editing := some shape } =
      Session.commit (shape.setStop s.pointer) { s with editing := none } := by
  obtain ⟨diagram, settings, camera, viewport, mode, editing, drag, pointer⟩ := s
  subst hmode
  cases h <;> rfl

/-- A primary click commits the shape, and a secondary click gives it up. -/
theorem outcome_applyButtons {Made Committed : Shape Float → Prop} (h : TwoPoint m outline style)
    (hmode : s.mode = m) (hmade : Made shape)
    (hcommitted : frame.primary.pressed = true → Committed (shape.setStop s.pointer)) :
    Outcome s Made Committed (Session.applyButtons frame { s with editing := some shape }) := by
  obtain ⟨diagram, settings, camera, viewport, mode, editing, drag, pointer⟩ := s
  subst hmode
  unfold Session.applyButtons
  split
  · rename_i hpressed
    cases h <;> exact .committed (hcommitted hpressed)
  · split
    · cases h <;> exact .givenUp rfl (Session.commits_cancel _)
    · exact .made hmade

/-- What a frame makes of the shape. -/
theorem outcome_spans (h : TwoPoint m outline style) (hmode : s.mode = m) (hdrag : s.drag = none)
    (hediting : s.editing = some found) (hfound : Spans outline p q σ found) :
    Outcome (s.heard frame)
      (Spans outline p (if s.sees frame = true then s.snapped frame else q) σ)
      (fun shape => Spans outline p (s.snapped frame) σ shape ∧
        (frame.primary.pressed = true ∨ .commit ∈ frame.keys))
      (s.draws frame) := by
  have hheard : (s.heard frame).mode = m := by simpa using hmode
  have hpointer := s.pointer_heard frame
  have hself := Session.heard_eq_of_editing hediting frame
  have hfinish : ∀ {shape : Shape Float} {q : Point Float}, Spans outline p q σ shape →
      Spans outline p (s.snapped frame) σ (shape.setStop (s.heard frame).pointer) := fun hshape =>
    hpointer ▸ h.spans_setStop hshape _
  -- The second point of the shape has followed the pointer, if that was seen to move.
  obtain ⟨followed, hfollow, hfollowed⟩ : ∃ followed,
      (Session.followPointer.guarded fun _ => s.sees frame) (s.heard frame) =
        ({ s.heard frame with editing := some followed }, []) ∧
      Spans outline p (if s.sees frame = true then s.snapped frame else q) σ followed := by
    unfold Transition.guarded
    split
    · refine ⟨found.setStop (s.heard frame).pointer, ?_, hfinish hfound⟩
      rw [hself]
      exact h.followPointer_eq hheard
    · exact ⟨found, by rw [← hself]; rfl, hfound⟩
  refine Session.outcome_draws (hmode ▸ h.mode_ne.1) hdrag hfollow ?_ fun shape hshape hkey => ?_
  · exact h.outcome_applyButtons hheard hfollowed fun hpressed =>
      ⟨hfinish hfollowed, .inl hpressed⟩
  · rw [h.commitKey_eq hheard]
    exact .committed ⟨hfinish hshape, .inr hkey⟩

/-- What a frame makes that starts a shape. -/
theorem outcome_spans_click (h : TwoPoint m outline style) (hmode : s.mode = m)
    (hdrag : s.drag = none) (hidle : s.editing = none) (hpressed : frame.primary.pressed = true) :
    Outcome (s.heard frame)
      (Spans outline (s.snapped frame) (Session.freshEnd (s.snapped frame)) (style s.settings))
      (Spans outline (s.snapped frame) (s.snapped frame) (style s.settings))
      (s.draws frame) := by
  have hheard : (s.heard frame).mode = m := by simpa using hmode
  have hpointer := s.pointer_heard frame
  have hnone := (s.editing_heard frame).trans hidle
  refine Session.outcome_draws_click hidle (hmode ▸ h.mode_ne.2) hdrag hpressed ?_
    fun shape hshape _ => ?_
  · rw [h.primaryClick_eq hheard hnone]
    exact .made ⟨by rw [hpointer], h.style_heard s frame⟩
  · have hfinished : Spans outline (s.snapped frame) (s.snapped frame) (style s.settings)
        (shape.setStop (s.heard frame).pointer) := hpointer ▸ h.spans_setStop hshape _
    rw [h.commitKey_eq hheard]
    exact .committed hfinished

end TwoPoint

/-! ### Runs -/

section Run

variable {m : Mode} {outline : Point Float → Point Float → Geometry Float} {style : Settings → Style}
  {before since ops : List Operation} {first frame : Frame} {shape : Shape Float}

/-- The shape that is being made runs from the place of the click that began it to where the pointer
was last seen to move. -/
theorem Begun.spans (h : TwoPoint m outline style) (hbegun : Begun m before first since)
    (hmode : (run (before ++ .tick first :: since)).session.mode = m)
    (hediting : (run (before ++ .tick first :: since)).session.editing = some shape) :
    let p := (run (before ++ [.tick first])).session.pointer
    Spans outline p ((moves (before ++ [.tick first]) since).getLastD (Session.freshEnd p))
      (style (run before).session.settings) shape := by
  intro p
  have hp : p = (run before).session.snapped first := pointer_run_tick before first
  refine hbegun.induct (P := fun since => Spans outline p
    ((moves (before ++ [.tick first]) since).getLastD (Session.freshEnd p))
    (style (run before).session.settings)) ?_ ?_ ?_ h.mode_ne.2 hmode hediting
  · intro shape hmode hidle hpressed hdrawn
    have hdrag := drag_run_eq_none _ (hmode ▸ h.mode_ne.1)
    rw [hp]
    exact (h.outcome_spans_click hmode hdrag hidle hpressed).of_editing hdrawn
  · intro since frame found shape hmode hfound htyping hspans hdrawn
    have hdrag := drag_run_eq_none _ (hmode ▸ h.mode_ne.1)
    have hshape := (h.outcome_spans hmode hdrag hfound hspans).of_editing hdrawn
    rw [moves_concat, List.append_assoc, List.singleton_append]
    cases hsees : (run (before ++ .tick first :: since)).session.sees frame <;>
      simpa [Operation.moved?, htyping, hsees] using hshape
  · intro since op found shape _ hmoved hspans hplain
    obtain ⟨fan, raster, rfl⟩ := Shape.derived_of_plain_eq hplain.symm
    rw [moves_concat, List.append_assoc, List.singleton_append, hmoved, Option.toList_none,
      List.append_nil]
    exact ⟨hspans.geometry_eq, hspans.style_eq⟩

/-- A line or a circle that is committed in its mode runs from the place of the click that began it to
the place where it is committed, in the style of the settings at the click. -/
theorem committed_spans (h : TwoPoint m outline style) {index : Nat} {kind : Kind}
    (hmode : (run ops).session.mode = m)
    (hcommitted : .shapeCommitted index kind ∈ (tick frame (run ops).session).2) :
    ∃ before first since shape, ops ++ [.tick frame] = before ++ .tick first :: since ∧
      Begun m before first since ∧ (run ops).session.Commits frame shape ∧
      index = (run ops).session.diagram.size ∧ kind = shape.kind ∧
      (frame.primary.pressed = true ∨ .commit ∈ frame.keys) ∧
      Spans outline (run (before ++ [.tick first])).session.pointer
        (run (ops ++ [.tick frame])).session.pointer (style (run before).session.settings) shape := by
  have hdrag := drag_run_eq_none _ (hmode ▸ h.mode_ne.1)
  rw [pointer_run_tick]
  cases hediting : (run ops).session.editing with
  -- The click that begins the shape is of the frame that commits it.
  | none =>
    obtain ⟨htyping, hpressed⟩ := Session.click_of_committed hediting hcommitted
    obtain ⟨shape, hcommits, hspans, hindex, hkind⟩ :=
      (h.outcome_spans_click hmode hdrag hediting hpressed).exists_commits hcommitted
    refine ⟨ops, frame, [], shape, rfl, .click hmode hediting htyping hpressed, hcommits, hindex,
      hkind, .inl hpressed, ?_⟩
    rwa [pointer_run_tick]
  | some found =>
    have hmaking : (run ops).session.editing.isSome = true := by rw [hediting]; rfl
    obtain ⟨before, first, since, rfl, hbegun⟩ := exists_begun h.mode_ne.2 hmode hmaking
    have hfound := hbegun.spans h hmode hediting
    obtain ⟨shape, hcommits, ⟨hspans, hby⟩, hindex, hkind⟩ :=
      (h.outcome_spans hmode hdrag hediting hfound).exists_commits hcommitted
    exact ⟨before, first, since ++ [.tick frame], shape, by simp, .later _ hbegun hmode hmaking,
      hcommits, hindex, hkind, hby, hspans⟩

/-- A line that the commit key ends, after the pointer has been moved by a frame that types and the
settings have been changed. -/
theorem committed_spans_line :
    let ops : List Operation := [.tick (Session.clickAt ⟨1, 1⟩), .setSettings { dashed := true },
      .tick { pointer := ⟨5, 5⟩, typing := true }]
    let frame : Frame := { pointer := ⟨3, 2⟩, keys := [.commit] }
    (run ops).session.mode = .line ∧ .shapeCommitted 0 .line ∈ (tick frame (run ops).session).2 ∧
      ∃ before first since shape, ops ++ [.tick frame] = before ++ .tick first :: since ∧
        (tick frame (run ops).session).1.diagram = (run ops).session.diagram.push shape ∧
        Spans .line (run (before ++ [.tick first])).session.pointer
          (run (ops ++ [.tick frame])).session.pointer (run before).session.settings.strokeStyle
          shape := by
  intro ops frame
  have hmode : (run ops).session.mode = .line := by decide +kernel
  have hcommitted : .shapeCommitted 0 .line ∈ (tick frame (run ops).session).2 := by decide +kernel
  obtain ⟨before, first, since, shape, hcut, -, hcommits, -, -, -, hspans⟩ :=
    committed_spans .line hmode hcommitted
  have hpushed := hcommits.diagram_tick (by decide) (by decide)
  exact ⟨hmode, hcommitted, before, first, since, shape, hcut, hpushed, hspans⟩

end Run

end Draftboard
