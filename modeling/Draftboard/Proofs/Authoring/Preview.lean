import Draftboard.Proofs.Authoring.Following

/-!
# Draftboard.Proofs.Authoring.Preview

What the preview of a label shows of the label that a click would place.

* A click places a label of the settings at the pointer, whatever the preview shows
  (`Session.commits_labelShape`).
* The preview takes its text and its style from the settings together, at the click that begins it and
  whenever the pointer is seen to move while the settings have another text (`Lettering`). It keeps both
  as long as the text stays the same (`ShownSince`, `Begun.shows`).
* So after a move the preview has the place and the text of the next label. It is the next label if and
  only if the colour has not been changed since the text was (`preview_of_next_label`); a colour that
  is changed alone shows on the label and not on the preview (`preview_in_old_color`).
-/

namespace Draftboard

open Session (tick)

/-! ### Letterings -/

/-- What a label shows besides its place. -/
structure Lettering where
  text : String
  style : Style

/-- The lettering of the next label. -/
def Settings.lettering (s : Settings) : Lettering := ⟨s.label, s.labelStyle⟩

/-- A shape is a label with a lettering. -/
structure Shows (shape : Shape Float) (lettering : Lettering) : Prop where
  geometry_eq : ∃ anchor, shape.geometry = .label anchor lettering.text
  style_eq : shape.style = lettering.style

/-- Of all letterings that settings have had, one after another, this is the first since the text last
changed. -/
def ShownSince (all : List Lettering) (made : Lettering) : Prop :=
  ∃ earlier later, all = earlier ++ made :: later ∧ (∀ l ∈ later, l.text = made.text) ∧
    ∀ l ∈ earlier.getLast?, l.text ≠ made.text

namespace ShownSince

variable {all : List Lettering} {made new : Lettering}

theorem singleton (made : Lettering) : ShownSince [made] made := ⟨[], [], rfl, by simp, by simp⟩

/-- With the same text the lettering stays. -/
theorem same (h : ShownSince all made) (htext : new.text = made.text) :
    ShownSince (all ++ [new]) made := by
  obtain ⟨earlier, later, rfl, hlater, hearlier⟩ := h
  refine ⟨earlier, later ++ [new], by simp, fun l hl => ?_, hearlier⟩
  rcases List.mem_append.1 hl with hl | hl
  · exact hlater l hl
  · rw [List.mem_singleton.1 hl, htext]

/-- Another text brings its lettering with it. -/
theorem other (h : ShownSince all made) (htext : new.text ≠ made.text) :
    ShownSince (all ++ [new]) new := by
  obtain ⟨earlier, later, rfl, hlater, -⟩ := h
  refine ⟨earlier ++ made :: later, [], rfl, by simp, fun l hl => ?_⟩
  -- The last one of before has the text that has been shown.
  rw [List.getLast?_append_cons] at hl
  have hl := List.mem_of_getLast? hl
  rcases List.mem_cons.1 hl with rfl | hl
  · exact htext.symm
  · rw [hlater l hl]
    exact htext.symm

/-- The lettering that is shown has the last text. -/
theorem text_eq (h : ShownSince (all ++ [new]) made) : made.text = new.text := by
  obtain ⟨earlier, later, hall, hlater, -⟩ := h
  rcases List.eq_nil_or_concat later with rfl | ⟨later, l, rfl⟩
  · obtain ⟨-, hnew⟩ := List.append_inj' hall rfl
    rw [List.singleton_inj.1 hnew]
  · rw [List.concat_eq_append, ← List.cons_append, ← List.append_assoc] at hall
    obtain ⟨-, hnew⟩ := List.append_inj' hall rfl
    rw [List.singleton_inj.1 hnew]
    exact (hlater l (by simp)).symm

end ShownSince

/-- The lettering of the settings at a frame that sees the pointer move, if the operation is one. -/
def Operation.lettered? (s : Session) : Operation → Option Lettering
  | .tick frame =>
    if frame.typing = false ∧ s.sees frame = true then some s.settings.lettering else none
  | _ => none

/-- The letterings of the settings wherever operations see the pointer move. -/
def letterings (before ops : List Operation) : List Lettering :=
  gather Operation.lettered? before ops

theorem letterings_concat (before ops : List Operation) (op : Operation) :
    letterings before (ops ++ [op]) =
      letterings before ops ++ (op.lettered? (run (before ++ ops)).session).toList :=
  gather_concat Operation.lettered? before ops op

/-- A lettering is looked at only where the pointer is seen to move. -/
theorem Operation.lettered?_of_moved? {s : Session} {op : Operation} (h : op.moved? s = none) :
    op.lettered? s = none := by
  cases op with
  | tick frame =>
    have hunseen : ¬ (frame.typing = false ∧ s.sees frame = true) := fun hseen => by
      simp [moved?, hseen] at h
    exact if_neg hunseen
  | _ => rfl

/-! ### One frame -/

namespace Session

variable {s : Session} {frame : Frame} {found : Shape Float} {made : Lettering}

@[simp] theorem lettering_heard (s : Session) (frame : Frame) :
    (s.heard frame).settings.lettering = s.settings.lettering :=
  heard_congr (·.settings.lettering) (fun s key => by cases key <;> rfl) s frame

theorem shows_labelShape (s : Session) : Shows s.labelShape s.settings.lettering :=
  ⟨⟨s.pointer, rfl⟩, rfl⟩

/-- What the preview shows of another text is new, and of the same text old. -/
theorem shows_relabelled (h : Shows found made) (s : Session) :
    Shows (s.relabelled found)
      (if s.settings.lettering.text = made.text then made else s.settings.lettering) := by
  obtain ⟨geometry, style, fan, raster⟩ := found
  obtain ⟨⟨anchor, rfl⟩, hstyle⟩ := h
  have hother : showsOtherText s.settings.label (.label anchor made.text) =
      !decide (s.settings.lettering.text = made.text) := by
    rw [showsOtherText, bne, beq_eq_decide, decide_eq_decide.2 eq_comm]
    rfl
  unfold relabelled
  rw [hother]
  by_cases hsame : s.settings.lettering.text = made.text
  · rw [if_pos hsame, if_neg (by simp [hsame])]
    exact ⟨⟨s.pointer, rfl⟩, hstyle⟩
  · rw [if_neg hsame, if_pos (by simp [hsame])]
    exact s.shows_labelShape

/-- The label that a session has heard of: of the settings, at the pointer of the frame. -/
theorem labelShape_heard (s : Session) (frame : Frame) :
    (s.heard frame).labelShape =
      { geometry := .label (s.snapped frame) s.settings.label, style := s.settings.labelStyle } := by
  have hlettering := s.lettering_heard frame
  obtain ⟨htext, hstyle⟩ := Lettering.mk.inj hlettering
  unfold labelShape
  rw [s.pointer_heard, htext, hstyle]

/-- A click where a preview is shown commits the label of the settings, and reports it. -/
theorem commits_labelShape (hmode : s.mode = .label) (hshown : s.editing.isSome = true)
    {click : Frame} (htyping : click.typing = false) (hpressed : click.primary.pressed = true) :
    s.Commits click (s.heard click).labelShape ∧
      .shapeCommitted s.diagram.size .label ∈ (tick click s).2 := by
  obtain ⟨found, hediting⟩ := Option.isSome_iff_exists.1 hshown
  have hheard : (s.heard click).mode = .label := by simpa using hmode
  -- The pointer changes the preview at most, and the click looks at the settings only.
  obtain ⟨shown, actions, hfollow⟩ : ∃ shown actions,
      (followPointer.guarded fun _ => s.sees click) (s.heard click) =
        ({ s.heard click with editing := some shown }, actions) := by
    unfold Transition.guarded
    split
    · exact ⟨_, _, Prod.ext (followPointer_of_label hheard (by simpa using hediting)) rfl⟩
    · exact ⟨found, [], by rw [← heard_eq_of_editing hediting click]; rfl⟩
  have hclick : applyButtons click { s.heard click with editing := some shown } =
      commit (s.heard click).labelShape { s.heard click with editing := some shown } := by
    unfold applyButtons primaryClick
    rw [if_pos hpressed, hheard]
    rfl
  have hdraws : s.draws click = ((commit (s.heard click).labelShape
      { s.heard click with editing := some shown }).1,
        actions ++ [.shapeCommitted (s.heard click).diagram.size .label]) := by
    unfold draws
    dsimp only
    rw [Transition.andThen_apply, Transition.andThen_apply, hfollow]
    dsimp only
    rw [hclick, afterClick_of_label (by simpa [commit] using hheard)]
    rfl
  have hcommits : s.Commits click (s.heard click).labelShape := by
    refine ⟨htyping, ?_⟩
    rw [hdraws, ← s.diagram_heard click]
    rfl
  obtain ⟨redraw, hactions⟩ := (tick_eq (s := s) htyping).2
  refine ⟨hcommits, ?_⟩
  rw [hactions, hdraws, s.diagram_heard, settled]
  simp

/-- At the pointer of the session it is the label that the session would place already. -/
theorem commits_labelShape_of_snapped (hmode : s.mode = .label) (hshown : s.editing.isSome = true)
    {click : Frame} (htyping : click.typing = false) (hpressed : click.primary.pressed = true)
    (hsame : s.snapped click = s.pointer) : s.Commits click s.labelShape ∧
      .shapeCommitted s.diagram.size .label ∈ (tick click s).2 := by
  have hnext : (s.heard click).labelShape = s.labelShape := by
    rw [s.labelShape_heard, hsame]
    rfl
  rw [← hnext]
  exact commits_labelShape hmode hshown htyping hpressed

end Session

/-! ### Runs -/

section Run

variable {before since ops : List Operation} {first frame : Frame} {shape : Shape Float}

/-- The preview of a label shows the lettering of the settings when the text was last found changed. -/
theorem Begun.shows (hbegun : Begun .label before first since)
    (hmode : (run (before ++ .tick first :: since)).session.mode = .label)
    (hediting : (run (before ++ .tick first :: since)).session.editing = some shape) :
    ∃ made, Shows shape made ∧
      ShownSince ((run before).session.settings.lettering ::
        letterings (before ++ [.tick first]) since) made := by
  refine hbegun.induct (P := fun since shape => ∃ made, Shows shape made ∧
    ShownSince ((run before).session.settings.lettering ::
      letterings (before ++ [.tick first]) since) made) ?_ ?_ ?_ (by decide) hmode hediting
  · intro shape hmode hidle hpressed hdrawn
    rw [Session.editing_draws_click_of_label hmode hidle hpressed] at hdrawn
    obtain rfl := Option.some.inj hdrawn
    refine ⟨_, ?_, .singleton _⟩
    rw [← Session.lettering_heard _ first]
    exact Session.shows_labelShape _
  · rintro since frame found shape hmode hfound htyping ⟨made, hshows, hsince⟩ hdrawn
    rw [Session.editing_draws_of_label hmode hfound hdrawn, letterings_concat, List.append_assoc,
      List.singleton_append, ← List.cons_append]
    cases hsees : (run (before ++ .tick first :: since)).session.sees frame with
    | false => simpa [Operation.lettered?, hsees] using ⟨made, hshows, hsince⟩
    | true =>
      have hnew := Session.shows_relabelled hshows
        ((run (before ++ .tick first :: since)).session.heard frame)
      rw [Session.lettering_heard] at hnew
      simp only [Operation.lettered?, htyping, hsees, and_self, if_true, Option.toList_some]
      split at hnew
      · rename_i hsame
        exact ⟨made, hnew, hsince.same hsame⟩
      · rename_i hother
        exact ⟨_, hnew, hsince.other hother⟩
  · rintro since op found shape - hmoved ⟨made, hshows, hsince⟩ hplain
    obtain ⟨fan, raster, rfl⟩ := Shape.derived_of_plain_eq hplain.symm
    rw [letterings_concat, List.append_assoc, List.singleton_append,
      Operation.lettered?_of_moved? hmoved, Option.toList_none, List.append_nil]
    exact ⟨made, ⟨hshows.geometry_eq, hshows.style_eq⟩, hsince⟩

/-- A frame that sees the pointer move brings the preview to the place and the text of the next label. -/
theorem Begun.geometry_of_sees
    (hbegun : Begun .label before first (since ++ [.tick frame])) (htyping : frame.typing = false)
    (hsees : (run (before ++ .tick first :: since)).session.sees frame = true)
    (hmode : (run (before ++ .tick first :: (since ++ [.tick frame]))).session.mode = .label)
    (hediting : (run (before ++ .tick first :: (since ++ [.tick frame]))).session.editing = some shape)
    {made : Lettering} (hshows : Shows shape made)
    (hsince : ShownSince ((run before).session.settings.lettering ::
      letterings (before ++ [.tick first]) (since ++ [.tick frame])) made) :
    shape.geometry =
      (run (before ++ .tick first :: since ++ [.tick frame])).session.labelShape.geometry := by
  have hlive := hbegun.live_label hmode hediting
  generalize hs : (run (before ++ .tick first :: since ++ [.tick frame])).session = s
  rw [session_run_concat] at hs
  have hpointer : s.pointer = (run (before ++ .tick first :: since)).session.snapped frame := by
    rw [← hs]
    exact Session.pointer_tick _ frame
  have hsettings : s.settings.lettering =
      (run (before ++ .tick first :: since)).session.settings.lettering := by
    rw [← hs]
    exact (congrArg (·.1.lettering) (Session.outlook_tick htyping)).trans
      (Session.lettering_heard _ frame)
  obtain ⟨anchor, hgeometry⟩ := hshows.geometry_eq
  have htext : made.text = s.settings.label := by
    rw [letterings_concat, List.append_assoc, List.singleton_append, Operation.lettered?,
      if_pos ⟨htyping, hsees⟩, Option.toList_some, ← List.cons_append] at hsince
    exact hsince.text_eq.trans (congrArg Lettering.text hsettings.symm)
  have hanchor : anchor = s.pointer := by
    dsimp only at hlive
    rw [hgeometry, moves_concat, List.append_assoc, List.singleton_append, Operation.moved?,
      if_pos ⟨htyping, hsees⟩, Option.toList_some, List.getLastD_concat] at hlive
    exact (Option.some.inj hlive).trans hpointer.symm
  rw [hgeometry, htext, hanchor]
  rfl

/-- Where a frame sees the pointer move and leaves the preview, a click at the same place would place
the label of the settings, and the preview is at the place of that label and has its text. Its style is
the one that the settings had when the text was last found changed; so the preview is the label that the
click would place if and only if the settings have the same style still. -/
theorem preview_of_next_label (hmode : (run ops).session.mode = .label)
    (hshown : (run ops).session.editing.isSome = true) (htyping : frame.typing = false)
    (hsees : (run ops).session.sees frame = true)
    (hediting : (run (ops ++ [.tick frame])).session.editing = some shape) :
    let s := (run (ops ++ [.tick frame])).session
    (∀ click : Frame, click.typing = false → click.primary.pressed = true →
      s.snapped click = s.pointer →
      s.Commits click s.labelShape ∧ .shapeCommitted s.diagram.size .label ∈ (tick click s).2) ∧
    shape.geometry = s.labelShape.geometry ∧
    ∃ before first since made, ops = before ++ .tick first :: since ∧
      Begun .label before first since ∧
      ShownSince ((run before).session.settings.lettering ::
        letterings (before ++ [.tick first]) (since ++ [.tick frame])) made ∧
      shape.style = made.style ∧ (shape.plain = s.labelShape ↔ made.style = s.labelShape.style) := by
  intro s
  have hs : s = (tick frame (run ops).session).1 := session_run_concat ops (.tick frame)
  have hlabel : s.mode = .label := by
    have hmade : (tick frame (run ops).session).1.editing = some shape := hs ▸ hediting
    rw [hs]
    exact (Session.mode_tick (by rw [hmade]; rfl)).trans hmode
  refine ⟨fun click hclick hpressed hsame => Session.commits_labelShape_of_snapped hlabel
    (by rw [hediting]; rfl) hclick hpressed hsame, ?_⟩
  obtain ⟨before, first, since, rfl, hbegun⟩ := exists_begun (by decide) hmode hshown
  -- The frame is one of those that find the preview.
  have hlater : Begun .label before first (since ++ [.tick frame]) := .later _ hbegun hmode hshown
  have hops : before ++ .tick first :: since ++ [.tick frame] =
      before ++ .tick first :: (since ++ [.tick frame]) := by simp
  rw [hops] at hediting
  have hlabel' : (run (before ++ .tick first :: (since ++ [.tick frame]))).session.mode = .label :=
    hops ▸ hlabel
  obtain ⟨made, hshows, hsince⟩ := hlater.shows hlabel' hediting
  have hplace : shape.geometry = s.labelShape.geometry :=
    hlater.geometry_of_sees htyping hsees hlabel' hediting hshows hsince
  refine ⟨hplace, before, first, since, made, rfl, hbegun, hsince, hshows.style_eq, ?_⟩
  rw [← hshows.style_eq]
  exact ⟨congrArg Shape.style, fun hstyle => by rw [Shape.plain, hplace, hstyle]; rfl⟩

/-- Another text and another colour between the click that shows a label and the move after it: the
preview takes both. -/
theorem preview_of_red_label :
    let ops : List Operation := [.setMode .label, .tick (Session.clickAt ⟨0, 0⟩),
      .setSettings { label := "new", color := ⟨.red, 1⟩ }]
    let frame : Frame := { pointer := ⟨5, 5⟩ }
    let s := (run (ops ++ [.tick frame])).session
    (run ops).session.mode = .label ∧ (run ops).session.editing.isSome = true ∧
      (run ops).session.sees frame = true ∧
      ∃ shape, s.editing = some shape ∧ s.Commits (Session.clickAt ⟨5, 5⟩) s.labelShape ∧
        shape.geometry = s.labelShape.geometry ∧ shape.style.color.ink = .red := by
  intro ops frame s
  have hmode : (run ops).session.mode = .label := by decide +kernel
  have hshown : (run ops).session.editing.isSome = true := by decide +kernel
  have hsees : (run ops).session.sees frame = true := by decide +kernel
  have hred : (s.editing.map fun shape => shape.style.color.ink) = some .red := by decide +kernel
  have hsnap : s.settings.snap = (run ops).session.settings.snap := by decide +kernel
  have hsame : s.snapped (Session.clickAt ⟨5, 5⟩) = s.pointer := by
    rw [Session.snapped, hsnap]
    exact (pointer_run_tick ops frame).symm
  obtain ⟨shape, hediting, hink⟩ := Option.map_eq_some_iff.1 hred
  obtain ⟨hnext, hplace, -⟩ := preview_of_next_label hmode hshown rfl hsees hediting
  exact ⟨hmode, hshown, hsees, shape, hediting, (hnext _ rfl rfl hsame).1, hplace, hink⟩

/-- Another colour alone between the click that shows a label and the move after it: the preview is
black as before, and a click at the same place commits a red label. -/
theorem preview_in_old_color :
    let ops : List Operation := [.setMode .label, .tick (Session.clickAt ⟨0, 0⟩),
      .setSettings { color := ⟨.red, 1⟩ }]
    let frame : Frame := { pointer := ⟨5, 5⟩ }
    let s := (run (ops ++ [.tick frame])).session
    (run ops).session.mode = .label ∧ (run ops).session.editing.isSome = true ∧
      (run ops).session.sees frame = true ∧
      ∃ shape label, s.editing = some shape ∧ s.Commits (Session.clickAt ⟨5, 5⟩) label ∧
        shape.style.color.ink = .black ∧ label.style.color.ink = .red := by
  intro ops frame s
  have hblack : (s.editing.map fun shape => shape.style.color.ink) = some .black := by
    decide +kernel
  obtain ⟨shape, hediting, hink⟩ := Option.map_eq_some_iff.1 hblack
  have hmode : s.mode = .label := by decide +kernel
  exact ⟨by decide +kernel, by decide +kernel, by decide +kernel, shape, _, hediting,
    (Session.commits_labelShape hmode (by rw [hediting]; rfl) rfl rfl).1, hink, by decide +kernel⟩

end Run

end Draftboard
