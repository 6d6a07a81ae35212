import Draftboard.Proofs.Authoring.TwoPoint
import Draftboard.Proofs.Number.Equality
import Draftboard.Proofs.Picture.Settled

/-!
# Draftboard.Proofs.Authoring.Following

Shapes that follow the pointer.

* The end of a line, the rim of a circle and the preview of a label are where the pointer was last seen
  to move since the click that began them (`Begun.live`). While text is typed the pointer moves unseen.
* So the shape is at the pointer if each unseen move was made up for by one that was seen
  (`CaughtUp`, `live_follows`).
* It stays behind if the pointer comes to rest while text is typed: the next frame finds the pointer
  where it is and does not move the shape (`lags_behind`).
-/

namespace Draftboard

open Session (tick)

/-- The point of a geometry that follows the pointer. -/
def Geometry.live? : Geometry Float → Option (Point Float)
  | .line _ stop => some stop
  | .circle _ rim => some rim
  | .label anchor _ => some anchor
  | .polyline _ | .curve .. => none

/-- A mode in which the shape follows the pointer, and where its point lies that does so, as long as
the pointer stays where the click was. -/
inductive Trails : Mode → (Point Float → Point Float) → Prop
  | line : Trails .line Session.freshEnd
  | circle : Trails .circle Session.freshEnd
  | label : Trails .label id

/-- After each unseen move of the pointer there was one that was seen. -/
def CaughtUp (before since : List Operation) : Prop :=
  ∀ earlier frame later, since = earlier ++ .tick frame :: later → frame.typing = true →
    (run (before ++ earlier)).session.sees frame = true →
    moves (before ++ earlier ++ [.tick frame]) later ≠ []

/-! ### Labels -/

namespace Session

variable {s : Session} {frame : Frame} {shape found followed : Shape Float} {p : Point Float}

theorem commitKey_of_label (hmode : s.mode = .label) : commitKey s = (s, []) := by
  unfold commitKey
  rw [hmode]

/-- After the click there is nothing in a frame that moves a label. -/
theorem afterClick_of_label (hmode : s.mode = .label) (grabs : Session → Bool) :
    (((dragHandles frame).guarded grabs).andThen (pressCommit frame)) s = (s, []) := by
  have hcurve : s.mode ≠ .curve := by simp [hmode]
  rw [Transition.andThen_of_quiet
    (Transition.guarded_of_quiet (dragHandles_of_mode hcurve frame) grabs)]
  exact Transition.guarded_of_quiet (commitKey_of_label hmode) _

/-- A click places a label and leaves the preview where it is; a secondary click ends it. -/
theorem applyButtons_of_label (hmode : s.mode = .label) (hediting : s.editing = some followed)
    (frame : Frame) :
    (applyButtons frame s).1.mode = .label ∧
      ∀ shape, (applyButtons frame s).1.editing = some shape → shape = followed := by
  obtain ⟨diagram, settings, camera, viewport, mode, editing, drag, pointer⟩ := s
  obtain rfl : mode = .label := hmode
  obtain rfl : editing = some followed := hediting
  have hsame : ∀ shape, some followed = some shape → shape = followed := fun shape h =>
    (Option.some.inj h).symm
  have hgone : ∀ shape, none = some shape → shape = followed := by
    intro shape h
    cases h
  unfold applyButtons
  split
  · exact ⟨rfl, hsame⟩
  · split
    · exact ⟨rfl, hgone⟩
    · exact ⟨rfl, hsame⟩

/-- What the preview of a label becomes where the pointer is seen to move: a new one, if the settings
have another text, and otherwise the old one at the pointer. -/
def relabelled (s : Session) (shape : Shape Float) : Shape Float :=
  if showsOtherText s.settings.label shape.geometry then s.labelShape else shape.setStart s.pointer

theorem followPointer_of_label (hmode : s.mode = .label) (hediting : s.editing = some found) :
    (followPointer s).1 = { s with editing := some (s.relabelled found) } := by
  unfold followPointer relabelled
  rw [hediting, hmode]
  dsimp only
  split <;> rfl

/-- The preview of a label follows the pointer. -/
theorem live_relabelled (hkind : found.geometry.kind = .label) (s : Session) :
    (s.relabelled found).geometry.live? = some s.pointer := by
  obtain ⟨geometry, style, fan, raster⟩ := found
  unfold relabelled
  split
  · rfl
  · cases geometry with
    | label anchor text => rfl
    | line | circle | polyline | curve => cases hkind

/-- The click that begins a label shows a preview of it at the pointer. -/
theorem primaryClick_of_label (hmode : s.mode = .label) (hidle : s.editing = none) :
    primaryClick s = ({ s with editing := some s.labelShape }, []) := by
  obtain ⟨diagram, settings, camera, viewport, mode, editing, drag, pointer⟩ := s
  obtain rfl : mode = .label := hmode
  obtain rfl : editing = none := hidle
  rfl

/-- What a frame makes of the preview of a label. -/
theorem editing_draws_of_label (hmode : s.mode = .label) (hediting : s.editing = some found)
    (hshape : (s.draws frame).1.editing = some shape) :
    shape = if s.sees frame = true then (s.heard frame).relabelled found else found := by
  have hheard : (s.heard frame).mode = .label := by simpa using hmode
  have hsome : (s.heard frame).editing = some found := by simpa using hediting
  obtain ⟨hfollow, hfollowed⟩ :
      ((followPointer.guarded fun _ => s.sees frame) (s.heard frame)).1.mode = .label ∧
        ((followPointer.guarded fun _ => s.sees frame) (s.heard frame)).1.editing =
          some (if s.sees frame = true then (s.heard frame).relabelled found else found) := by
    unfold Transition.guarded
    split
    · rw [followPointer_of_label hheard hsome]
      exact ⟨hheard, rfl⟩
    · exact ⟨hheard, hsome⟩
  obtain ⟨hbuttons, hsame⟩ := applyButtons_of_label hfollow hfollowed frame
  unfold draws at hshape
  dsimp only at hshape
  rw [Transition.andThen_apply, Transition.andThen_apply, afterClick_of_label hbuttons] at hshape
  exact hsame shape hshape

theorem live_draws (hmode : s.mode = .label) (hediting : s.editing = some found)
    (hkind : found.geometry.kind = .label) (hfound : found.geometry.live? = some p)
    (hshape : (s.draws frame).1.editing = some shape) :
    shape.geometry.live? = some (if s.sees frame = true then s.snapped frame else p) := by
  rw [editing_draws_of_label hmode hediting hshape]
  split
  · rw [live_relabelled hkind, s.pointer_heard]
  · exact hfound

/-- What a frame makes that begins a label. -/
theorem editing_draws_click_of_label (hmode : s.mode = .label) (hidle : s.editing = none)
    (hpressed : frame.primary.pressed = true) :
    (s.draws frame).1.editing = some (s.heard frame).labelShape := by
  have hheard : (s.heard frame).mode = .label := by simpa using hmode
  have hclick := primaryClick_of_label hheard ((s.editing_heard frame).trans hidle)
  have hkey : commitKey { s.heard frame with editing := some (s.heard frame).labelShape } =
      ({ s.heard frame with editing := some (s.heard frame).labelShape }, []) :=
    commitKey_of_label hheard
  rw [draws_click hidle (by simp [hmode]) hpressed, Transition.andThen_of_quiet hclick, pressCommit,
    Transition.guarded_of_quiet hkey]

theorem live_draws_click (hmode : s.mode = .label) (hidle : s.editing = none)
    (hpressed : frame.primary.pressed = true) (hshape : (s.draws frame).1.editing = some shape) :
    shape.geometry.live? = some (s.snapped frame) := by
  rw [editing_draws_click_of_label hmode hidle hpressed] at hshape
  obtain rfl := Option.some.inj hshape
  exact congrArg some (s.pointer_heard frame)

end Session

/-! ### The point that follows -/

section Run

variable {m : Mode} {fresh : Point Float → Point Float} {before since ops : List Operation}
  {first : Frame} {shape : Shape Float}

theorem Begun.live_label (hbegun : Begun .label before first since)
    (hmode : (run (before ++ .tick first :: since)).session.mode = .label)
    (hediting : (run (before ++ .tick first :: since)).session.editing = some shape) :
    let p := (run (before ++ [.tick first])).session.pointer
    shape.geometry.live? = some ((moves (before ++ [.tick first]) since).getLastD p) := by
  intro p
  have hp : p = (run before).session.snapped first := pointer_run_tick before first
  refine hbegun.induct (P := fun since shape =>
    shape.geometry.live? = some ((moves (before ++ [.tick first]) since).getLastD p))
    ?_ ?_ ?_ (by decide) hmode hediting
  · intro shape hmode hidle hpressed hdrawn
    rw [hp]
    exact Session.live_draws_click hmode hidle hpressed hdrawn
  · intro since frame found shape hmode hfound htyping hlive hdrawn
    have hinvariant := (reachable_run (before ++ .tick first :: since)).invariant
    have hkind : found.geometry.kind = .label := by
      rw [(hinvariant.fits_geometry hfound).kind, hmode]
      rfl
    have hshape := Session.live_draws hmode hfound hkind hlive hdrawn
    rw [moves_concat, List.append_assoc, List.singleton_append]
    cases hsees : (run (before ++ .tick first :: since)).session.sees frame <;>
      simpa [Operation.moved?, htyping, hsees] using hshape
  · intro since op found shape _ hmoved hlive hplain
    obtain ⟨fan, raster, rfl⟩ := Shape.derived_of_plain_eq hplain.symm
    rw [moves_concat, List.append_assoc, List.singleton_append, hmoved, Option.toList_none,
      List.append_nil]
    exact hlive

/-- What follows the pointer is where the pointer was last seen to move. -/
theorem Begun.live (h : Trails m fresh) (hbegun : Begun m before first since)
    (hmode : (run (before ++ .tick first :: since)).session.mode = m)
    (hediting : (run (before ++ .tick first :: since)).session.editing = some shape) :
    let p := (run (before ++ [.tick first])).session.pointer
    shape.geometry.live? = some ((moves (before ++ [.tick first]) since).getLastD (fresh p)) := by
  cases h with
  | line =>
    rw [(hbegun.spans .line hmode hediting).geometry_eq]
    rfl
  | circle =>
    rw [(hbegun.spans .circle hmode hediting).geometry_eq]
    rfl
  | label => exact hbegun.live_label hmode hediting

end Run

/-! ### The pointer -/

/-- Only frames move the pointer. -/
theorem Operation.pointer_perform {s : Session} {op : Operation} (hop : ∀ frame, op ≠ .tick frame) :
    (op.perform s).session.pointer = s.pointer := by
  cases op with
  | tick frame => exact absurd rfl (hop frame)
  | setModeNamed name =>
    simp only [perform, Session.setModeNamed]
    cases Mode.named? name.toList <;> rfl
  | beginDrop polygon =>
    simp only [perform, Session.beginDrop]
    split <;> rfl
  | _ => rfl

section Pointer

variable {before since ops : List Operation}

/-- A finite pointer is equal to itself, and snapping it makes no difference. -/
theorem Session.beq_self_snapped {frame : Frame} (h : frame.pointer.IsFinite) (s : Session) :
    (s.snapped frame == s.snapped frame) = true := by
  have hself : (frame.pointer == frame.pointer) = true :=
    Bool.and_eq_true_iff.2 ⟨Exact.beq_self_iff.2 (Exact.unpack_ne_of_isFinite h.1),
      Exact.beq_self_iff.2 (Exact.unpack_ne_of_isFinite h.2)⟩
  unfold snapped
  split
  · exact Point.beq_self_snapToGrid hself
  · exact hself

theorem beq_self_pointer_run (hfinite : ∀ frame, .tick frame ∈ ops → frame.pointer.IsFinite) :
    ((run ops).session.pointer == (run ops).session.pointer) = true := by
  induction ops using List.reverseRecOn with
  | nil => decide +kernel
  | append_singleton ops op ih =>
    by_cases hop : ∃ frame, op = .tick frame
    · obtain ⟨frame, rfl⟩ := hop
      rw [pointer_run_tick]
      exact Session.beq_self_snapped (hfinite frame (by simp)) _
    · rw [session_run_concat, Operation.pointer_perform fun frame h => hop ⟨frame, h⟩]
      exact ih fun frame h => hfinite frame (List.mem_append_left _ h)

/-- An operation that is not seen to move the pointer makes up for nothing. -/
theorem CaughtUp.of_concat {op : Operation}
    (hop : op.moved? (run (before ++ since)).session = none)
    (h : CaughtUp before (since ++ [op])) : CaughtUp before since := by
  intro earlier frame later hcut htyping hsees
  have hmoves := h earlier frame (later ++ [op]) (by rw [hcut]; simp) htyping hsees
  have hstate : before ++ earlier ++ [.tick frame] ++ later = before ++ since := by
    rw [hcut]
    simp
  rwa [moves_concat, hstate, hop, Option.toList_none, List.append_nil] at hmoves

/-- The pointer is where it was last seen to move, if no unseen move has come after. -/
theorem getLastD_moves_beq
    (hfinite : ∀ frame, .tick frame ∈ before ++ since → frame.pointer.IsFinite)
    (h : CaughtUp before since) :
    ((moves before since).getLastD (run before).session.pointer ==
      (run (before ++ since)).session.pointer) = true := by
  induction since using List.reverseRecOn with
  | nil =>
    rw [List.append_nil] at hfinite ⊢
    exact beq_self_pointer_run hfinite
  | append_singleton since op ih =>
    rw [← List.append_assoc] at hfinite ⊢
    have hbefore := fun frame h => hfinite frame (List.mem_append_left _ h)
    rw [moves_concat, session_run_concat]
    by_cases hop : ∃ frame, op = .tick frame
    · obtain ⟨frame, rfl⟩ := hop
      have hpointer : ((Operation.tick frame).perform (run (before ++ since)).session).session.pointer =
          (run (before ++ since)).session.snapped frame := Session.pointer_tick _ frame
      rw [hpointer]
      cases hsees : (run (before ++ since)).session.sees frame with
      -- The pointer is where it was.
      | false =>
        have hunseen : (Operation.tick frame).moved? (run (before ++ since)).session = none := by
          simp [Operation.moved?, hsees]
        have hsame : ((run (before ++ since)).session.snapped frame ==
            (run (before ++ since)).session.pointer) = true := by
          simpa [Session.sees] using hsees
        rw [hunseen, Option.toList_none, List.append_nil]
        exact PartialEquivBEq.trans (ih hbefore (h.of_concat hunseen)) (PartialEquivBEq.symm hsame)
      | true =>
        cases htyping : frame.typing with
        -- An unseen move that nothing makes up for.
        | true => exact absurd rfl (h since frame [] rfl htyping hsees)
        | false =>
          have hself := Session.beq_self_snapped (hfinite frame (by simp))
            (run (before ++ since)).session
          simpa [Operation.moved?, htyping, hsees] using hself
    · have hother := fun frame h => hop ⟨frame, h⟩
      have hunseen := (Operation.unseen (s := (run (before ++ since)).session) hother).2
      rw [hunseen, Option.toList_none, List.append_nil, Operation.pointer_perform hother]
      exact ih hbefore (h.of_concat hunseen)

/-- Without typing there are no unseen moves. -/
theorem caughtUp_of_not_typing (h : ∀ frame, .tick frame ∈ since → frame.typing = false) :
    CaughtUp before since := by
  intro earlier frame later hcut htyping
  rw [h frame (by simp [hcut])] at htyping
  cases htyping

end Pointer

/-! ### The shape at the pointer -/

/-- What follows the pointer is, on a finite run, where the pointer was last seen to move since the
click. So it is at the pointer if each unseen move has been made up for; a line and a circle are not as
long as the pointer is where the click was. -/
theorem live_follows {m : Mode} {fresh : Point Float → Point Float} (h : Trails m fresh)
    {ops : List Operation} {shape : Shape Float} (hmode : (run ops).session.mode = m)
    (hediting : (run ops).session.editing = some shape)
    (hfinite : ∀ frame, .tick frame ∈ ops → frame.pointer.IsFinite) :
    ∃ before first since live, ops = before ++ .tick first :: since ∧ Begun m before first since ∧
      shape.geometry.live? = some live ∧
      let p := (run (before ++ [.tick first])).session.pointer
      live = (moves (before ++ [.tick first]) since).getLastD (fresh p) ∧
        (CaughtUp (before ++ [.tick first]) since →
          m = .label ∨ (p == (run ops).session.pointer) = false →
          (live == (run ops).session.pointer) = true) := by
  have hm : m ≠ .droppedPolygon := by cases h <;> decide
  obtain ⟨before, first, since, rfl, hbegun⟩ := exists_begun hm hmode (by rw [hediting]; rfl)
  refine ⟨before, first, since, _, rfl, hbegun, hbegun.live h hmode hediting, rfl,
    fun hcaught haway => ?_⟩
  have hops : before ++ .tick first :: since = before ++ [.tick first] ++ since := by simp
  rw [hops] at hfinite haway ⊢
  have hlast := getLastD_moves_beq hfinite hcaught
  cases hmoves : moves (before ++ [.tick first]) since using List.reverseRecOn with
  | nil =>
    -- The pointer is where the click was, so only a label can be meant.
    rw [hmoves] at hlast
    cases h with
    | label => exact hlast
    | line | circle => exact absurd (haway.resolve_left (by decide)) (by simpa using hlast)
  | append_singleton moves q =>
    rw [hmoves] at hlast
    simpa using hlast

/-- The preview of a label follows the pointer. -/
theorem live_follows_preview :
    let ops : List Operation :=
      [.setMode .label, .tick (Session.clickAt ⟨0, 0⟩), .tick { pointer := ⟨5, 5⟩ }]
    (run ops).session.mode = .label ∧ (∀ frame, .tick frame ∈ ops → frame.pointer.IsFinite) ∧
      ∃ shape live, (run ops).session.editing = some shape ∧ shape.geometry.live? = some live ∧
        (live == (run ops).session.pointer) = true := by
  intro ops
  have hmode : (run ops).session.mode = .label := by decide +kernel
  have hmaking : (run ops).session.editing.isSome = true := by decide +kernel
  have hframes : ∀ frame, .tick frame ∈ ops → frame.pointer.IsFinite ∧ frame.typing = false := by
    intro frame h
    simp only [ops, List.mem_cons, reduceCtorEq, Operation.tick.injEq, List.not_mem_nil, false_or,
      or_false] at h
    rcases h with rfl | rfl
    · exact ⟨by decide +kernel, rfl⟩
    · exact ⟨by decide +kernel, rfl⟩
  obtain ⟨shape, hediting⟩ := Option.isSome_iff_exists.1 hmaking
  obtain ⟨before, first, since, live, hcut, -, hlive, -, hfollows⟩ :=
    live_follows .label hmode hediting fun frame h => (hframes frame h).1
  have hcaught : CaughtUp (before ++ [.tick first]) since :=
    caughtUp_of_not_typing fun frame h => (hframes frame (by simp [hcut, h])).2
  exact ⟨hmode, fun frame h => (hframes frame h).1, shape, live, hediting, hlive,
    hfollows hcaught (.inl rfl)⟩

/-- The pointer moves while text is typed, and rests in the frame after that. The end of the line and
the label stay behind it. -/
theorem lags_behind :
    let unseen : List Operation := [.tick (Session.clickAt ⟨0, 0⟩),
      .tick { pointer := ⟨5, 5⟩, typing := true }, .tick { pointer := ⟨5, 5⟩ }]
    let line := (run (.setMode .line :: unseen)).session
    let label := (run (.setMode .label :: unseen)).session
    (∀ frame, .tick frame ∈ unseen → frame.pointer.IsFinite) ∧
      (line.editing.map Shape.kind = some .line ∧
        ((run [.setMode .line, .tick (Session.clickAt ⟨0, 0⟩)]).session.pointer == line.pointer) =
          false ∧
        ∃ live, (line.editing.bind fun shape => shape.geometry.live?) = some live ∧
          (live == line.pointer) = false) ∧
      label.editing.map Shape.kind = some .label ∧
      ∃ live, (label.editing.bind fun shape => shape.geometry.live?) = some live ∧
        (live == label.pointer) = false := by
  intro unseen line label
  have hfinite : ∀ frame, .tick frame ∈ unseen → frame.pointer.IsFinite := by
    intro frame h
    simp only [unseen, List.mem_cons, Operation.tick.injEq, List.not_mem_nil, or_false] at h
    rcases h with rfl | rfl | rfl <;> decide +kernel
  have hbehind : ∀ {s : Session}, ((s.editing.bind fun shape => shape.geometry.live?).any
      fun live => !(live == s.pointer)) = true →
      ∃ live, (s.editing.bind fun shape => shape.geometry.live?) = some live ∧
        (live == s.pointer) = false := by
    intro s h
    cases hlive : s.editing.bind fun shape => shape.geometry.live? with
    | none => rw [hlive] at h; cases h
    | some live => exact ⟨live, rfl, by simpa [hlive] using h⟩
  exact ⟨hfinite, ⟨by decide +kernel, by decide +kernel, hbehind (by decide +kernel)⟩,
    by decide +kernel, hbehind (by decide +kernel)⟩

end Draftboard
