import Draftboard.Proofs.Scene.Again
import Draftboard.Proofs.Shape.Fan
import Draftboard.Proofs.Shape.Points

/-!
# Draftboard.Proofs.Scene.Lettering

The image of a label and the text that it was made for.

* A shape is changed and drawn in any order (`Shape.Event`), and drawing alone puts images on. One event
  keeps the image, takes it off, or puts one on that was missing (`Shape.raster_undergo`), and what a label
  says is changed by editing its geometry and by nothing else (`Shape.says_undergo_iff`).
* So a shape that carries an image was given it at some drawing, for the text that it had then, and has
  kept it since (`Shape.Carries`). The image is that of the present text if the last edit since then, if
  there was any, left a label with that text (`Shape.image_of_present_text`).
* Editing drops the triangles of every shape but not the image of a label, so an edit that gives a label
  another text leaves it with the image of the old one (`Shape.image_of_old_text`).
-/

namespace Draftboard

variable {σ α : Type}

/-! ### What editing keeps -/

namespace Geometry

variable [Scalar α]

theorem says_translate_iff (offset : Point α) (g : Geometry α) (text : String) :
    (g.translate offset).Says text ↔ g.Says text := by
  cases g <;> simp [translate, Says]

end Geometry

namespace Shape

/-- With another geometry the image stays or goes. -/
theorem raster_withGeometry (s : Shape α) (g : Geometry α) :
    (s.withGeometry g).raster = s.raster ∨ (s.withGeometry g).raster = none :=
  ite_eq_or_eq _ _ _

/-! ### Events -/

/-- What happens to a shape: a change, other than that an image is put on by hand, or a drawing. -/
inductive Event (σ α : Type)
  | change (c : Change α) (h : ∀ image, c ≠ .setRaster image)
  | draw (v : View α) (rasterizer : Rasterizer σ) (offset : Point α) (state : σ)

/-- The geometry that an event edits the shape to, if it does. -/
def Event.edit? : Event σ α → Option (Geometry α)
  | .change (.edit g) _ => some g
  | _ => none

variable [Scalar α]

/-- The shape after an event. -/
def undergo (s : Shape α) : Event σ α → Shape α
  | .change c _ => s.change c
  | .draw v rasterizer offset state => (v.drawShape rasterizer offset s state).shape

/-- The shape after some events, in order. -/
def after (s : Shape α) (events : List (Event σ α)) : Shape α := events.foldl undergo s

@[simp] theorem after_nil (s : Shape α) : s.after ([] : List (Event σ α)) = s := rfl

@[simp] theorem after_append (s : Shape α) (before since : List (Event σ α)) :
    s.after (before ++ since) = (s.after before).after since :=
  List.foldl_append

@[simp] theorem after_singleton (s : Shape α) (e : Event σ α) : s.after [e] = s.undergo e := rfl

/-- The event draws the shape, which lacks the image of the text, and `image` is the answer. -/
def MadeFor (s : Shape α) (e : Event σ α) (text : String) (image : Raster) : Prop :=
  s.missing? = some text ∧ ∃ v rasterizer offset state,
    e = .draw v rasterizer offset state ∧ image = rasterizer.answer text state

/-- A change that puts no image on keeps the one that is there or takes it off. -/
theorem raster_change (s : Shape α) {c : Change α} (h : ∀ image, c ≠ .setRaster image) :
    (s.change c).raster = s.raster ∨ (s.change c).raster = none := by
  cases c with
  | setStart p => exact raster_withGeometry s _
  | setStop p => exact raster_withGeometry s _
  | setControl index p =>
    obtain ⟨hrefused, -⟩ | ⟨g, hset, -, -⟩ := s.setControl?_eq index p
    · rw [change, hrefused]
      exact .inl rfl
    · rw [change, hset]
      exact raster_withGeometry s g
  | pushVertex p =>
    rw [change, pushVertex?]
    split
    · exact raster_withGeometry s _
    · exact .inl rfl
  | translate offset => exact raster_withGeometry s _
  | edit g => exact raster_withGeometry s g
  | restyle style => exact .inl rfl
  | setRaster image => exact absurd rfl (h image)
  | takeRaster => exact .inr rfl
  | triangles =>
    rw [change]
    rcases s.triangles_cases with hsame | ⟨_, _, -, -, -, hkept⟩
    · exact .inl (congrArg raster hsame)
    · rw [hkept]
      exact .inl rfl

/-- The image that a shape carries after an event was there before, or the event has put it on. -/
theorem raster_undergo {s : Shape α} {e : Event σ α} {image : Raster}
    (h : (s.undergo e).raster = some image) :
    s.raster = some image ∨ ∃ text, s.MadeFor e text image := by
  cases e with
  | change c hc =>
    rcases s.raster_change hc with hkept | hgone
    · exact .inl (hkept ▸ h)
    · rw [undergo, hgone] at h
      cases h
  | draw v rasterizer offset state =>
    rw [undergo, View.shape_drawShape] at h
    dsimp only at h
    cases hmissing : s.missing? with
    | none =>
      rw [hmissing, Option.map_none, Option.none_or] at h
      exact .inl h
    | some text =>
      rw [hmissing, Option.map_some, Option.some_or] at h
      exact .inr ⟨text, hmissing, v, rasterizer, offset, state, rfl, (Option.some.inj h).symm⟩

/-- After an event a shape says what it has been edited to say, or what it said before. -/
theorem says_undergo_iff (s : Shape α) (e : Event σ α) (text : String) :
    (s.undergo e).geometry.Says text ↔ (e.edit?.getD s.geometry).Says text := by
  cases e with
  | change c hc =>
    cases c with
    | setStart p => exact s.geometry.says_setStart_iff p text
    | setStop p => exact s.geometry.says_setStop_iff p text
    | setControl index p =>
      obtain ⟨hrefused, -⟩ | ⟨g, hset, -, hmoved⟩ := s.setControl?_eq index p
      · rw [undergo, change, hrefused]
        exact Iff.rfl
      · rw [undergo, change, hset]
        exact hmoved.says_iff text
    | pushVertex p =>
      rw [undergo, change, pushVertex?]
      split
      · rename_i vertices hpolyline
        simp [withGeometry, Event.edit?, hpolyline, Geometry.Says]
      · exact Iff.rfl
    | translate offset => exact s.geometry.says_translate_iff offset text
    | edit g => exact Iff.rfl
    | restyle style => exact Iff.rfl
    | setRaster image => exact absurd rfl (hc image)
    | takeRaster => exact Iff.rfl
    | triangles =>
      rw [undergo, change, s.derived_triangles.geometry_eq]
      exact Iff.rfl
  | draw v rasterizer offset state =>
    rw [undergo, (v.derived_drawShape rasterizer offset s state).geometry_eq]
    exact Iff.rfl

/-! ### Runs -/

/-- After some events a shape says what the last edit made it say, or what it said at first. -/
theorem says_after_iff (s : Shape α) (events : List (Event σ α)) (text : String) :
    (s.after events).geometry.Says text ↔
      ((events.filterMap Event.edit?).getLast?.getD s.geometry).Says text := by
  induction events using List.reverseRecOn with
  | nil => exact Iff.rfl
  | append_singleton events e ih =>
    rw [after_append, after_singleton, says_undergo_iff, List.filterMap_append]
    cases hedit : e.edit? with
    | none => simpa [hedit] using ih
    | some g => simp [hedit]

/-- How a shape came to carry an image: of the events, one drawing made the image for a text, and through
all that came since the shape has kept it. -/
def Carries (s : Shape α) (events since : List (Event σ α)) (text : String) (image : Raster) : Prop :=
  ∃ before made, events = before ++ made :: since ∧ (s.after before).MadeFor made text image ∧
    ∀ later, later <+: since → (s.after (before ++ made :: later)).raster = some image

theorem exists_carries {s : Shape α} (hnew : s.raster = none) {events : List (Event σ α)}
    {image : Raster} (h : (s.after events).raster = some image) :
    ∃ since text, s.Carries events since text image := by
  induction events using List.reverseRecOn with
  | nil =>
    rw [after_nil, hnew] at h
    cases h
  | append_singleton events e ih =>
    have hend := h
    rw [after_append, after_singleton] at h
    rcases raster_undergo h with hkept | ⟨text, hmade⟩
    -- The image was there before the last event, and the last event has kept it.
    · obtain ⟨since, text, before, made, hcut, hmade, hsince⟩ := ih hkept
      refine ⟨since ++ [e], text, before, made, by simp [hcut], hmade, fun later hlater => ?_⟩
      rcases List.prefix_concat_iff.1 hlater with rfl | hearlier
      · rw [← hend, hcut]
        simp
      · exact hsince later hearlier
    · refine ⟨[], text, events, e, rfl, hmade, fun later hlater => ?_⟩
      rw [List.prefix_nil.1 hlater]
      exact hend

theorem MadeFor.present {s : Shape α} {e : Event σ α} {text : String} {image : Raster}
    (h : s.MadeFor e text image) : (s.undergo e).geometry.Says text := by
  obtain ⟨hmissing, v, rasterizer, offset, state, rfl, -⟩ := h
  rw [undergo, (v.derived_drawShape rasterizer offset s state).geometry_eq]
  exact (missing?_eq_some_iff.1 hmissing).1

/-- The image was made for the present text if the last edit since then has left that text, or if there
was none. -/
theorem Carries.says_iff {s : Shape α} {events since : List (Event σ α)} {text : String}
    {image : Raster} (h : s.Carries events since text image) :
    (s.after events).geometry.Says text ↔
      ∀ g, (since.filterMap Event.edit?).getLast? = some g → g.Says text := by
  obtain ⟨before, made, rfl, hmade, -⟩ := h
  have hpresent := hmade.present
  have hcut : s.after (before ++ made :: since) = ((s.after before).undergo made).after since := by
    rw [after_append]
    rfl
  rw [hcut, says_after_iff]
  cases (since.filterMap Event.edit?).getLast? with
  | none => simp [hpresent]
  | some g => simp

/-- An image that a shape carries was made at a drawing of it, for the text that it had then, and stays
through all that comes after. It is the image of the present text if and only if the last edit since
then, if there was one, has left a label with that text. Editing drops the triangles of every shape, and
leaves an image behind on a label that has one. -/
theorem image_of_present_text {σ α : Type} [Scalar α] :
    (∀ (geometry : Geometry α) (style : Style) (events : List (Event σ α)) (image : Raster),
      let s : Shape α := { geometry, style }
      (s.after events).raster = some image → ∃ since text, s.Carries events since text image ∧
        ((s.after events).geometry.Says text ↔
          ∀ g, (since.filterMap Event.edit?).getLast? = some g → g.Says text)) ∧
    ∀ (s : Shape α) (g : Geometry α) (image : Raster), (s.withGeometry g).fan = none ∧
      ((s.withGeometry g).raster = some image ↔ s.kind = .label ∧ s.raster = some image) := by
  constructor
  · intro geometry style events image s h
    obtain ⟨since, text, hcarries⟩ := exists_carries (s := s) rfl h
    exact ⟨since, text, hcarries, hcarries.says_iff⟩
  · intro s g image
    refine ⟨rfl, ?_⟩
    rw [withGeometry]
    exact Option.ite_none_right_eq_some

/-- A label is drawn, moved, and edited to stand elsewhere with the same text. -/
theorem image_of_moved_label :
    let rasterizer : Rasterizer Nat := ⟨fun _ next => (some next, next + 1), fun _ => 0⟩
    let view : View Float := ⟨.initial, .reference, .label, ⟨0, 0⟩, true, false⟩
    let label : Shape Float := { geometry := .label ⟨0, 0⟩ "$x$" }
    let events : List (Event Nat Float) := [.draw view rasterizer ⟨0, 0⟩ 1,
      .change (.translate ⟨1, 0⟩) (by simp), .change (.edit (.label ⟨5, 5⟩ "$x$")) (by simp),
      .draw view rasterizer ⟨0, 0⟩ 2]
    (label.after events).raster = some 1 ∧ (label.after events).geometry.Says "$x$" ∧
      ∃ since text, label.Carries events since text 1 ∧
        ((label.after events).geometry.Says text ↔
          ∀ g, (since.filterMap Event.edit?).getLast? = some g → g.Says text) := by
  intro rasterizer view label events
  have himage : (label.after events).raster = some 1 := by decide +kernel
  exact ⟨himage, ⟨⟨5, 5⟩, rfl⟩, image_of_present_text.1 _ _ _ _ himage⟩

/-- A label is drawn and then edited. Whatever it is edited to, it keeps the image: as it is, with another
text, and when it is no label any more. Drawn again, the other text is shown by the old image, and no image is
asked for. -/
theorem image_of_old_text :
    let rasterizer : Rasterizer Nat := ⟨fun _ next => (some next, next + 1), fun _ => 0⟩
    let view : View Float := ⟨.initial, .reference, .label, ⟨0, 0⟩, true, false⟩
    let label : Shape Float := { geometry := .label ⟨0, 0⟩ "$x$" }
    let editedTo (g : Geometry Float) : Shape Float := label.after
      [.draw view rasterizer ⟨0, 0⟩ 1, .change (.edit g) (by simp)]
    (editedTo label.geometry).raster = some 1 ∧
      (editedTo (.label ⟨0, 0⟩ "$y$")).raster = some 1 ∧
      ¬ (editedTo (.label ⟨0, 0⟩ "$y$")).geometry.Says "$x$" ∧
      (∃ anchor color, (view.drawShape rasterizer ⟨0, 0⟩ (editedTo (.label ⟨0, 0⟩ "$y$")) 2).primitives =
        [.label anchor "$y$" (some 1) color]) ∧
      (view.drawShape rasterizer ⟨0, 0⟩ (editedTo (.label ⟨0, 0⟩ "$y$")) 2).state = 2 ∧
      (editedTo (.line ⟨0, 0⟩ ⟨1, 1⟩)).raster = some 1 ∧
      (editedTo (.line ⟨0, 0⟩ ⟨1, 1⟩)).kind = .line := by
  intro rasterizer view label editedTo
  have hold : (editedTo (.label ⟨0, 0⟩ "$y$")).raster = some 1 := by decide +kernel
  have hagain : View.labelRaster rasterizer (editedTo (.label ⟨0, 0⟩ "$y$")) 2 =
      (some 1, editedTo (.label ⟨0, 0⟩ "$y$"), 2) := by
    rw [View.labelRaster_of_not_missing (by decide +kernel), hold]
    rfl
  have hdrawn := view.drawShape_label rasterizer ⟨0, 0⟩
    (show (editedTo (.label ⟨0, 0⟩ "$y$")).geometry = .label ⟨0, 0⟩ "$y$" from rfl) 2
  rw [hagain] at hdrawn
  refine ⟨by decide +kernel, hold, fun hpresent => ?_, ⟨_, _, congrArg Drawn.primitives hdrawn⟩,
    congrArg Drawn.state hdrawn, by decide +kernel, rfl⟩
  obtain ⟨anchor, hanchor⟩ := hpresent
  exact absurd (Geometry.label.inj hanchor).2 (by decide)

end Shape

end Draftboard
