import Draftboard.Proofs.Authoring.Redraw
import Draftboard.Proofs.Authoring.Run

/-!
# Draftboard.Proofs.Authoring.Making

What a frame makes.

* A session first hears a frame: the pointer moves and the keys for the view have their effect
  (`Session.heard`). Then the frame draws (`Session.draws`), and at last its keys may take committed
  shapes back, which touches nothing but the diagram (`exists_tick_eq`). What is committed is
  committed by the drawing (`Session.Commits`).
* Where nothing is being made, only a click starts a shape (`draws_click`,
  `draws_of_idle_of_not_pressed`).
* No frame takes a shape that is being made from one mode to another (`mode_tick`).
* A shape that is being made goes on being made, is committed, or is given up (`Outcome`). What a
  frame makes of it is worked out by one transition after another (`Outcome.andThen`).
-/

namespace Draftboard

open Transition (Keeps)

namespace Transition

variable {t : Transition} {s s' : Session}

/-- A transition that reports nothing only prepares the next one. -/
theorem andThen_of_quiet (h : t s = (s', [])) (u : Transition) : t.andThen u s = u s' := by
  rw [andThen_apply, h, List.nil_append]

/-- What changes nothing changes nothing under a condition. -/
theorem guarded_of_quiet (h : t s = (s, [])) (condition : Session → Bool) :
    t.guarded condition s = (s, []) := by
  unfold guarded
  split
  · exact h
  · rfl

end Transition

namespace Session

/-! ### Hearing a frame -/

/-- The session that has heard a frame: its pointer is the one of the frame, and the keys for the
view have had their effect. -/
def heard (s : Session) (frame : Frame) : Session :=
  frame.keys.foldl applyKey { s with pointer := s.snapped frame }

/-- What no key for the view changes is that of the session with the new pointer. -/
theorem heard_congr {β : Type} (f : Session → β) (hkey : ∀ s key, f (applyKey s key) = f s)
    (s : Session) (frame : Frame) : f (s.heard frame) = f { s with pointer := s.snapped frame } := by
  unfold heard
  generalize ({ s with pointer := s.snapped frame } : Session) = t
  induction frame.keys generalizing t with
  | nil => rfl
  | cons key keys ih => exact (ih (applyKey t key)).trans (hkey t key)

section Heard

variable (s : Session) (frame : Frame)

@[simp] theorem mode_heard : (s.heard frame).mode = s.mode :=
  heard_congr Session.mode (fun s key => by cases key <;> rfl) s frame

@[simp] theorem editing_heard : (s.heard frame).editing = s.editing :=
  heard_congr Session.editing (fun s key => by cases key <;> rfl) s frame

@[simp] theorem drag_heard : (s.heard frame).drag = s.drag :=
  heard_congr Session.drag (fun s key => by cases key <;> rfl) s frame

@[simp] theorem diagram_heard : (s.heard frame).diagram = s.diagram :=
  heard_congr Session.diagram (fun s key => by cases key <;> rfl) s frame

@[simp] theorem pointer_heard : (s.heard frame).pointer = s.snapped frame :=
  heard_congr Session.pointer (fun s key => by cases key <;> rfl) s frame

@[simp] theorem strokeStyle_heard :
    (s.heard frame).settings.strokeStyle = s.settings.strokeStyle :=
  heard_congr (·.settings.strokeStyle) (fun s key => by cases key <;> rfl) s frame

@[simp] theorem fillStyle_heard : (s.heard frame).settings.fillStyle = s.settings.fillStyle :=
  heard_congr (·.settings.fillStyle) (fun s key => by cases key <;> rfl) s frame

@[simp] theorem filled_heard : (s.heard frame).settings.filled = s.settings.filled :=
  heard_congr (·.settings.filled) (fun s key => by cases key <;> rfl) s frame

end Heard

theorem heard_eq_of_editing {s : Session} {shape : Shape Float} (hediting : s.editing = some shape)
    (frame : Frame) : s.heard frame = { s.heard frame with editing := some shape } := by
  rw [← hediting, ← s.editing_heard frame]

/-! ### Drawing, and taking back -/

/-- The commit key of a frame, which is out of use while a handle is dragged. -/
def pressCommit (frame : Frame) : Transition :=
  commitKey.guarded fun s => frame.keys.contains .commit && s.drag.isNone

/-- The keys of a frame that take committed shapes back. -/
def takeBack (frame : Frame) : Transition :=
  (deleteLast.guarded fun s => frame.keys.contains .deleteLast && !s.isConstructing).andThen <|
    clearAll.guarded fun s => frame.keys.contains .clearAll && !s.isConstructing

/-- What a frame draws: all that it does to a session that has heard it, up to the keys that take
shapes back. -/
def draws (s : Session) (frame : Frame) : Session × List Action :=
  let starts := frame.primary.pressed && (s.heard frame).startsShape
  ((followPointer.guarded fun _ => s.sees frame).andThen <|
    (applyButtons frame).andThen <|
    ((dragHandles frame).guarded fun _ => !starts).andThen <|
    pressCommit frame) (s.heard frame)

/-- A frame puts a shape on top of the diagram. A key may take it back at the end of the frame. -/
def Commits (s : Session) (frame : Frame) (shape : Shape Float) : Prop :=
  frame.typing = false ∧ (s.draws frame).1.diagram = s.diagram.push shape

variable {s : Session} {frame : Frame}

/-- A frame is drawn, and then shapes are taken back. -/
theorem tick_eq (htyping : frame.typing = false) :
    (tick frame s).1 = (takeBack frame (s.draws frame).1).1 ∧
      ∃ redraw, (tick frame s).2 =
        settled ((s.draws frame).2 ++ (takeBack frame (s.draws frame).1).2) redraw := by
  have happly : applyFrame frame (s.sees frame) (s.heard frame) =
      ((takeBack frame (s.draws frame).1).1,
        (s.draws frame).2 ++ (takeBack frame (s.draws frame).1).2) := by
    simp only [applyFrame, draws, pressCommit, takeBack, Transition.andThen_apply,
      List.append_assoc]
  have htick : tick frame s =
      let result := applyFrame frame (s.sees frame) (s.heard frame)
      (result.1, settled result.2 (frame.keys.any Key.changesView ||
        !(result.2.filter (· ≠ .renderNeeded)).isEmpty ||
        (s.sees frame && result.1.editing.isSome))) := by
    unfold tick
    dsimp only
    rw [if_neg (by simp [htyping])]
    rfl
  rw [htick, happly]
  exact ⟨rfl, _, rfl⟩

/-- Taking back changes the diagram only. -/
theorem exists_takeBack_eq (frame : Frame) (s : Session) :
    ∃ diagram, (takeBack frame s).1 = { s with diagram := diagram } := by
  have hdelete : Keeps (fun t => ∃ diagram, t = { s with diagram := diagram }) deleteLast := by
    rintro _ ⟨diagram, rfl⟩
    unfold deleteLast
    split <;> exact ⟨_, rfl⟩
  have hclear : Keeps (fun t => ∃ diagram, t = { s with diagram := diagram }) clearAll := by
    rintro _ ⟨diagram, rfl⟩
    unfold clearAll
    split <;> exact ⟨_, rfl⟩
  exact (hdelete.guarded _).andThen (hclear.guarded _) s ⟨s.diagram, rfl⟩

/-- A shape that a frame commits is on top of the diagram after it, unless a key takes it back. -/
theorem Commits.diagram_tick {shape : Shape Float} (h : s.Commits frame shape)
    (hdelete : .deleteLast ∉ frame.keys) (hclear : .clearAll ∉ frame.keys) :
    (tick frame s).1.diagram = s.diagram.push shape := by
  rw [(tick_eq h.1).1, ← h.2]
  simp [takeBack, Transition.andThen_apply, Transition.guarded, hdelete, hclear]

/-- All but the diagram is after a frame as the frame has drawn it. -/
theorem exists_tick_eq (htyping : frame.typing = false) :
    ∃ diagram, (tick frame s).1 = { (s.draws frame).1 with diagram := diagram } := by
  rw [(tick_eq htyping).1]
  exact exists_takeBack_eq frame _

theorem editing_tick (htyping : frame.typing = false) :
    (tick frame s).1.editing = (s.draws frame).1.editing := by
  obtain ⟨diagram, h⟩ := exists_tick_eq (s := s) htyping
  rw [h]

/-- While text is typed, the pointer moves. -/
theorem tick_of_typing (htyping : frame.typing = true) :
    tick frame s = ({ s with pointer := s.snapped frame }, []) := by
  unfold tick
  dsimp only
  rw [if_pos htyping]

/-- The outlook is after a frame that of the session that has heard it. -/
theorem outlook_tick (htyping : frame.typing = false) :
    (tick frame s).1.outlook = (s.heard frame).outlook := by
  have houtlook := outlook_applyFrame frame (s.sees frame) (s.heard frame)
  unfold tick
  dsimp only
  rw [if_neg (by simp [htyping])]
  exact houtlook

/-- Whatever a frame does, the pointer is afterwards where the frame has it. -/
theorem pointer_tick (s : Session) (frame : Frame) :
    (tick frame s).1.pointer = s.snapped frame := by
  cases htyping : frame.typing with
  | true => rw [tick_of_typing htyping]
  | false =>
    have hpointer : (tick frame s).1.pointer = (s.heard frame).pointer :=
      congrArg (·.2.2.2) (outlook_tick htyping)
    exact hpointer.trans (pointer_heard s frame)

/-- A commit that a frame reports is one that it has drawn. -/
theorem mem_draws_of_shapeCommitted {index : Nat} {kind : Kind}
    (h : .shapeCommitted index kind ∈ (tick frame s).2) :
    frame.typing = false ∧ .shapeCommitted index kind ∈ (s.draws frame).2 := by
  cases htyping : frame.typing with
  | true =>
    rw [tick_of_typing htyping] at h
    cases h
  | false =>
    refine ⟨rfl, ?_⟩
    obtain ⟨redraw, hactions⟩ := (tick_eq (s := s) htyping).2
    rw [hactions, settled, List.mem_append] at h
    rcases h with h | h
    · rcases List.mem_append.1 (List.mem_filter.1 h).1 with h | h
      · exact h
      -- Nothing is committed while shapes are taken back.
      · have hnone : commits (takeBack frame (s.draws frame).1).2 = 0 := by
          unfold takeBack
          rw [Transition.andThen_apply, commits_append]
          have hdelete := commits_guarded_le (Nat.le_of_eq (commits_deleteLast (s.draws frame).1))
            fun s => frame.keys.contains .deleteLast && !s.isConstructing
          have hclear := commits_guarded_le (Nat.le_of_eq (commits_clearAll
            (deleteLast.guarded (fun s => frame.keys.contains .deleteLast && !s.isConstructing)
              (s.draws frame).1).1)) fun s => frame.keys.contains .clearAll && !s.isConstructing
          omega
        exact absurd rfl (List.countP_eq_zero.1 hnone _ h)
    · cases redraw <;> simp at h

/-! ### Where nothing is being made -/

theorem followPointer_of_idle (hidle : s.editing = none) : followPointer s = (s, []) := by
  unfold followPointer
  rw [hidle]

theorem dragHandles_of_idle (hidle : s.editing = none) (frame : Frame) :
    dragHandles frame s = (s, []) := by
  unfold dragHandles
  rw [hidle]
  cases s.mode <;> rfl

/-- Polylines and curves do not follow the pointer. -/
theorem followPointer_of_mode (hmode : s.mode = .polyline ∨ s.mode = .curve) :
    followPointer s = (s, []) := by
  unfold followPointer
  rcases hmode with hmode | hmode <;> rw [hmode] <;> cases s.editing <;> rfl

/-- Handles are of curves only. -/
theorem dragHandles_of_mode (hmode : s.mode ≠ .curve) (frame : Frame) :
    dragHandles frame s = (s, []) := by
  unfold dragHandles
  split
  · rename_i hcurve _
    exact absurd hcurve hmode
  · rfl

theorem commitKey_of_idle (hidle : s.editing = none) : commitKey s = (s, []) := by
  unfold commitKey finishAtPointer finishPolyline
  rw [hidle]
  cases s.mode <;> rfl

theorem pressCommit_of_idle (hidle : s.editing = none) (frame : Frame) :
    pressCommit frame s = (s, []) :=
  Transition.guarded_of_quiet (commitKey_of_idle hidle) _

theorem commits_cancel (s : Session) : commits (cancel s).2 = 0 :=
  commits_of_released fun _ => exists_of_mem_cancel

theorem secondaryClick_of_idle (hidle : s.editing = none) :
    (secondaryClick s).1.editing = none ∧ commits (secondaryClick s).2 = 0 := by
  unfold secondaryClick
  split
  · unfold finishPolyline
    rw [hidle]
    exact ⟨hidle, rfl⟩
  · exact ⟨rfl, commits_setMode .polyline s⟩
  · exact ⟨rfl, commits_cancel s⟩

/-- The pointer has nothing to follow it. -/
theorem draws_of_idle (hidle : s.editing = none) (frame : Frame) :
    s.draws frame = ((applyButtons frame).andThen <|
      ((dragHandles frame).guarded fun _ =>
        !(frame.primary.pressed && (s.heard frame).startsShape)).andThen <|
      pressCommit frame) (s.heard frame) := by
  have hfollow := Transition.guarded_of_quiet
    (followPointer_of_idle ((editing_heard s frame).trans hidle)) fun _ => s.sees frame
  unfold draws
  dsimp only
  rw [Transition.andThen_of_quiet hfollow]

/-- Without a click nothing is started, and nothing is committed. -/
theorem draws_of_idle_of_not_pressed (hidle : s.editing = none)
    (hpressed : frame.primary.pressed = false) :
    (s.draws frame).1.editing = none ∧ commits (s.draws frame).2 = 0 := by
  have hheard : (s.heard frame).editing = none := (editing_heard s frame).trans hidle
  have hbuttons : (applyButtons frame (s.heard frame)).1.editing = none ∧
      commits (applyButtons frame (s.heard frame)).2 = 0 := by
    unfold applyButtons
    rw [if_neg (by simp [hpressed])]
    split
    · exact secondaryClick_of_idle hheard
    · exact ⟨hheard, rfl⟩
  obtain ⟨hnone, hcommits⟩ := hbuttons
  have hdrag := Transition.guarded_of_quiet (dragHandles_of_idle hnone frame) fun _ =>
    !(frame.primary.pressed && (s.heard frame).startsShape)
  rw [draws_of_idle hidle, Transition.andThen_apply, Transition.andThen_of_quiet hdrag,
    pressCommit_of_idle hnone]
  exact ⟨hnone, by simpa using hcommits⟩

/-- The click that starts a shape grabs no handle of it. -/
theorem draws_click (hidle : s.editing = none) (hmode : s.mode ≠ .droppedPolygon)
    (hpressed : frame.primary.pressed = true) :
    s.draws frame = (primaryClick.andThen (pressCommit frame)) (s.heard frame) := by
  have hstarts : (s.heard frame).startsShape = true := by
    simp [startsShape, hidle, hmode]
  rw [draws_of_idle hidle, hpressed, hstarts]
  simp only [Transition.andThen_apply, applyButtons, hpressed, if_pos, Transition.guarded,
    Bool.and_self, Bool.not_true, Bool.false_eq_true, if_false, Transition.skip_apply,
    List.nil_append]

/-! ### The mode -/

theorem mode_followPointer (s : Session) : (followPointer s).1.mode = s.mode := by
  unfold followPointer
  split
  · rfl
  · rfl
  · split <;> rfl
  · rfl

theorem mode_finishAtPointer (s : Session) : (finishAtPointer s).1.mode = s.mode := by
  unfold finishAtPointer
  split <;> rfl

theorem mode_closePolygon (s : Session) : (closePolygon s).1.mode = s.mode := by
  unfold closePolygon
  split <;> rfl

theorem mode_extendPolyline (shape : Shape Float) (s : Session) :
    (extendPolyline shape s).1.mode = s.mode := by
  unfold extendPolyline
  dsimp only
  split
  · split
    · exact mode_closePolygon s
    · rfl
  · rfl

theorem mode_finishPolyline (s : Session) : (finishPolyline s).1.mode = s.mode := by
  unfold finishPolyline
  split
  · rfl
  · dsimp only
    split <;> rfl

theorem mode_dragHandles (frame : Frame) (s : Session) : (dragHandles frame s).1.mode = s.mode := by
  unfold dragHandles
  split
  · split <;> rfl
  · rfl

theorem mode_commitKey (s : Session) : (commitKey s).1.mode = s.mode := by
  unfold commitKey
  split
  · exact mode_finishAtPointer s
  · exact mode_finishAtPointer s
  · exact mode_finishPolyline s
  · rfl
  · rfl

/-- A click changes the mode only when it leaves nothing that is being made. -/
theorem mode_primaryClick (h : (primaryClick s).1.editing.isSome = true) :
    (primaryClick s).1.mode = s.mode := by
  unfold primaryClick at h ⊢
  split
  · rfl
  · rfl
  · exact mode_finishAtPointer s
  · exact mode_finishAtPointer s
  · rfl
  · exact mode_extendPolyline _ s
  · rfl
  · rfl
  · rfl
  · rfl
  · rename_i hmode
    rw [hmode] at h
    unfold placeDropped at h ⊢
    split
    · rfl
    -- The polygon has been placed.
    · rename_i hediting
      simp only [hediting] at h
      cases h

theorem mode_secondaryClick (h : (secondaryClick s).1.editing.isSome = true) :
    (secondaryClick s).1.mode = s.mode := by
  unfold secondaryClick at h ⊢
  split
  · exact mode_finishPolyline s
  · rename_i hmode
    rw [hmode] at h
    cases h
  · rfl

theorem mode_applyButtons (h : (applyButtons frame s).1.editing.isSome = true) :
    (applyButtons frame s).1.mode = s.mode := by
  unfold applyButtons at h ⊢
  split
  · rename_i hpressed
    rw [if_pos hpressed] at h
    exact mode_primaryClick h
  · rename_i hpressed
    rw [if_neg hpressed] at h
    split
    · rename_i hsecondary
      rw [if_pos hsecondary] at h
      exact mode_secondaryClick h
    · rfl

/-- A shape that is being made after the buttons was being made in the mode before. -/
theorem mode_draws (h : (s.draws frame).1.editing.isSome = true) :
    (s.draws frame).1.mode = s.mode := by
  have hlater : ∀ {t : Transition}, (∀ s, (t s).1.mode = s.mode) →
      (∀ {s : Session}, s.editing = none → t s = (s, [])) →
      Keeps (fun t => t.editing.isSome = true → t.mode = s.mode) t := by
    intro t hmode hidle u hu hafter
    rw [hmode]
    refine hu ?_
    by_contra hnone
    rw [hidle (by simpa using hnone)] at hafter
    exact hnone hafter
  have hdrag := hlater (mode_dragHandles frame) fun h => dragHandles_of_idle h frame
  have hcommit := hlater mode_commitKey commitKey_of_idle
  have hfollow : (followPointer.guarded (fun _ => s.sees frame) (s.heard frame)).1.mode = s.mode := by
    unfold Transition.guarded
    split
    · exact (mode_followPointer _).trans (mode_heard s frame)
    · exact mode_heard s frame
  have hrest := (hdrag.guarded fun _ =>
      !(frame.primary.pressed && (s.heard frame).startsShape)).andThen
    (hcommit.guarded fun s => frame.keys.contains .commit && s.drag.isNone)
  exact hrest _ (fun hbuttons => (mode_applyButtons hbuttons).trans hfollow) h

/-- A frame after which a shape is being made has not changed the mode. -/
theorem mode_tick (h : (tick frame s).1.editing.isSome = true) : (tick frame s).1.mode = s.mode := by
  cases htyping : frame.typing with
  | true => rw [tick_of_typing htyping]
  | false =>
    obtain ⟨diagram, htick⟩ := exists_tick_eq (s := s) htyping
    rw [htick] at h ⊢
    exact mode_draws h

/-- Where nothing was being made, a frame has started what is being made after it by a click. -/
theorem click_of_started (hidle : s.editing = none)
    (h : (tick frame s).1.editing.isSome = true) :
    frame.typing = false ∧ frame.primary.pressed = true := by
  cases htyping : frame.typing with
  | true =>
    rw [tick_of_typing htyping] at h
    rw [show ({ s with pointer := s.snapped frame } : Session).editing = none from hidle] at h
    cases h
  | false =>
    refine ⟨rfl, ?_⟩
    rw [editing_tick htyping] at h
    by_contra hpressed
    rw [(draws_of_idle_of_not_pressed hidle (by simpa using hpressed)).1] at h
    cases h

/-- Where nothing was being made, a frame commits nothing without a click. -/
theorem click_of_committed {index : Nat} {kind : Kind} (hidle : s.editing = none)
    (h : .shapeCommitted index kind ∈ (tick frame s).2) :
    frame.typing = false ∧ frame.primary.pressed = true := by
  obtain ⟨htyping, hdrawn⟩ := mem_draws_of_shapeCommitted h
  refine ⟨htyping, ?_⟩
  by_contra hpressed
  have hnone := (draws_of_idle_of_not_pressed hidle (by simpa using hpressed)).2
  exact absurd rfl (List.countP_eq_zero.1 hnone _ hdrawn)

/-! ### What becomes of a shape -/

/-- What becomes of the shape that a session is making, with what is known of the shape if it goes on
being made and if it is committed. -/
inductive Outcome (s : Session) (Made Committed : Shape Float → Prop) :
    Session × List Action → Prop
  | made {shape : Shape Float} (h : Made shape) :
      Outcome s Made Committed ({ s with editing := some shape }, [])
  | committed {shape : Shape Float} (h : Committed shape) :
      Outcome s Made Committed (commit shape { s with editing := none })
  | givenUp {result : Session × List Action} (hediting : result.1.editing = none)
      (hcommits : commits result.2 = 0) : Outcome s Made Committed result

namespace Outcome

variable {Made Made' Committed : Shape Float → Prop} {result : Session × List Action}

/-- The next transition has to be looked at only where the shape goes on being made. -/
theorem andThen {t u : Transition} {start : Session} (h : Outcome s Made Committed (t start))
    (hidle : ∀ v : Session, v.editing = none → u v = (v, []))
    (hmade : ∀ shape, Made shape →
      Outcome s Made' Committed (u { s with editing := some shape })) :
    Outcome s Made' Committed (t.andThen u start) := by
  rw [Transition.andThen_apply]
  generalize t start = result at h
  cases h with
  | made h => simpa using hmade _ h
  | committed h =>
    rw [hidle _ rfl, List.append_nil]
    exact .committed h
  | givenUp hediting hcommits =>
    rw [hidle _ hediting, List.append_nil]
    exact .givenUp hediting hcommits

theorem of_editing (h : Outcome s Made Committed result) {shape : Shape Float}
    (hediting : result.1.editing = some shape) : Made shape := by
  cases h with
  | made h => exact Option.some.inj hediting ▸ h
  | committed => cases hediting
  | givenUp hnone => rw [hnone] at hediting; cases hediting

/-- A commit that a frame reports is that of the shape. -/
theorem exists_commits (h : Outcome (s.heard frame) Made Committed (s.draws frame)) {index : Nat}
    {kind : Kind} (hreported : .shapeCommitted index kind ∈ (tick frame s).2) :
    ∃ shape, s.Commits frame shape ∧ Committed shape ∧ index = s.diagram.size ∧
      kind = shape.kind := by
  obtain ⟨htyping, hdrawn⟩ := mem_draws_of_shapeCommitted hreported
  have hdiagram := diagram_heard s frame
  have hcommits : ∀ shape, (s.draws frame).1.diagram = (s.heard frame).diagram.push shape →
      s.Commits frame shape := fun shape hpush => ⟨htyping, hdiagram ▸ hpush⟩
  generalize s.draws frame = result at h hdrawn hcommits
  cases h with
  | made => cases hdrawn
  | committed h =>
    obtain ⟨rfl, rfl⟩ := Action.shapeCommitted.inj (List.mem_singleton.1 hdrawn)
    exact ⟨_, hcommits _ rfl, h, congrArg Diagram.size hdiagram, rfl⟩
  | givenUp hediting hnone => exact absurd rfl (List.countP_eq_zero.1 hnone _ hdrawn)

end Outcome

section Draws

variable {Made Committed : Shape Float → Prop}

/-- The commit key finishes the shape, if it is pressed. -/
theorem outcome_pressCommit {shape : Shape Float} (hmade : Made shape) (hdrag : s.drag = none)
    (hkey : .commit ∈ frame.keys →
      Outcome s Made Committed (commitKey { s with editing := some shape })) :
    Outcome s Made Committed (pressCommit frame { s with editing := some shape }) := by
  unfold pressCommit Transition.guarded
  split
  · rename_i hpressed
    exact hkey (by simpa [hdrag] using hpressed)
  · exact .made hmade

/-- What a frame makes of a shape other than a curve: the shape follows the pointer, and then it is
for the buttons and the commit key. -/
theorem outcome_draws {followed : Shape Float} (hcurve : s.mode ≠ .curve) (hdrag : s.drag = none)
    (hfollow : (followPointer.guarded fun _ => s.sees frame) (s.heard frame) =
      ({ s.heard frame with editing := some followed }, []))
    (hbuttons : Outcome (s.heard frame) Made Committed
      (applyButtons frame { s.heard frame with editing := some followed }))
    (hkey : ∀ shape, Made shape → .commit ∈ frame.keys → Outcome (s.heard frame) Made Committed
      (commitKey { s.heard frame with editing := some shape })) :
    Outcome (s.heard frame) Made Committed (s.draws frame) := by
  unfold draws
  dsimp only
  rw [Transition.andThen_of_quiet hfollow]
  have hquiet : ∀ {v : Session}, dragHandles frame v = (v, []) →
      (((dragHandles frame).guarded fun _ =>
        !(frame.primary.pressed && (s.heard frame).startsShape)).andThen (pressCommit frame)) v =
        pressCommit frame v := fun h =>
    Transition.andThen_of_quiet (Transition.guarded_of_quiet h _) _
  refine hbuttons.andThen (fun v hv => ?_) fun shape hshape => ?_
  · rw [hquiet (dragHandles_of_idle hv frame), pressCommit_of_idle hv]
  · rw [hquiet (dragHandles_of_mode (by simpa using hcurve) frame)]
    exact outcome_pressCommit hshape (by simpa using hdrag) (hkey shape hshape)

/-- What a frame makes that starts a shape: after the click there is only the commit key. -/
theorem outcome_draws_click (hidle : s.editing = none) (hmode : s.mode ≠ .droppedPolygon)
    (hdrag : s.drag = none) (hpressed : frame.primary.pressed = true)
    (hclick : Outcome (s.heard frame) Made Committed (primaryClick (s.heard frame)))
    (hkey : ∀ shape, Made shape → .commit ∈ frame.keys → Outcome (s.heard frame) Made Committed
      (commitKey { s.heard frame with editing := some shape })) :
    Outcome (s.heard frame) Made Committed (s.draws frame) := by
  rw [draws_click hidle hmode hpressed]
  exact hclick.andThen (fun v hv => pressCommit_of_idle hv frame) fun shape hshape =>
    outcome_pressCommit hshape (by simpa using hdrag) (hkey shape hshape)

end Draws

end Session

end Draftboard
