import Draftboard.Proofs.Authoring.Watched
import Draftboard.Proofs.Picture.Returns

/-!
# Draftboard.Proofs.Authoring.ByHand

What is drawn by hand can be exported and read back.

* A session is drawn by hand if no shapes are handed to it: none are loaded, and no polygon is
  dropped (`Operation.ByHand`). Then a polyline gets into the diagram only with three vertices
  (`Session.HandMade`): a ring is closed at its first vertex once it has three, and an open polyline
  of two vertices becomes a line. Every transition keeps this, one lemma for each, and so does a run
  (`handMade_run`).
* Labels and radii are not checked when they are drawn. A label is written as it is, markup and all,
  and the distance of two points can overflow. So the shapes of a run come back if and only if their
  radii are finite and their labels recoverable (`run_readsBack_iff`).
-/

namespace Draftboard

open Transition (Keeps)

/-! ### Tall shapes -/

theorem Geometry.tall_of_kind {g : Geometry Float} (h : g.kind ≠ .polyline) : g.Tall :=
  fun hkind => absurd hkind h

/-- A vertex more makes no shape less tall. -/
theorem Shape.tall_pushVertex? {s t : Shape Float} {p : Point Float} (hs : s.geometry.Tall)
    (h : s.pushVertex? p = some t) : t.geometry.Tall := by
  obtain ⟨geometry, style, fan, raster⟩ := s
  cases geometry with
  | polyline vertices =>
    obtain rfl := Option.some.inj h
    intro _
    have hthree : 3 ≤ vertices.length := hs rfl
    show 3 ≤ (vertices ++ [p]).length
    rw [List.length_append]
    omega
  | line | circle | curve | label => cases h

namespace Session

/-- What holds of a session that no shapes are handed to. -/
structure HandMade (s : Session) : Prop where
  tall : ∀ shape ∈ s.diagram.shapes, shape.geometry.Tall
  /-- There is no polygon to be dropped. -/
  emptyHanded : s.mode = .droppedPolygon → s.editing = none

namespace HandMade

variable {s t : Session}

/-- The diagram stays, and it is no polygon that is being dropped. -/
theorem of_mode (h : s.HandMade) (hmode : t.mode ≠ .droppedPolygon)
    (hdiagram : t.diagram = s.diagram) : t.HandMade :=
  ⟨by rw [hdiagram]; exact h.tall, fun hdropped => absurd hdropped hmode⟩

/-- Nothing is being made. -/
theorem idle (h : s.HandMade) (hediting : t.editing = none) (hdiagram : t.diagram = s.diagram) :
    t.HandMade :=
  ⟨by rw [hdiagram]; exact h.tall, fun _ => hediting⟩

/-- The diagram, the mode and the shape that is being made are all that matters. -/
theorem congr (h : s.HandMade) (hmode : t.mode = s.mode) (hediting : t.editing = s.editing)
    (hdiagram : t.diagram = s.diagram) : t.HandMade :=
  ⟨by rw [hdiagram]; exact h.tall, by rw [hmode, hediting]; exact h.emptyHanded⟩

/-- A tall shape is committed. -/
theorem commit (h : s.HandMade) {shape : Shape Float} (hshape : shape.geometry.Tall) :
    (commit shape s).1.HandMade := by
  refine ⟨fun other hother => ?_, h.emptyHanded⟩
  rcases List.mem_append.1 hother with hother | hother
  · exact h.tall other hother
  · obtain rfl := List.mem_singleton.1 hother
    exact hshape

end HandMade

/-! ### Transitions -/

variable {s : Session}

theorem handMade_cancel (hs : s.HandMade) : (cancel s).1.HandMade := hs.idle rfl rfl

theorem handMade_setMode (hs : s.HandMade) (mode : Mode) : (setMode mode s).1.HandMade :=
  hs.idle rfl rfl

theorem handMade_followPointer (hs : s.HandMade) : (followPointer s).1.HandMade := by
  unfold followPointer
  split
  · rename_i hmode
    exact hs.of_mode (by simp [hmode]) rfl
  · rename_i hmode
    exact hs.of_mode (by simp [hmode]) rfl
  · rename_i hmode
    split
    · exact hs.of_mode (by simp [hmode]) rfl
    · exact hs.of_mode (by simp [hmode]) rfl
  · exact hs

/-- What is finished at the pointer is a line or a circle. -/
theorem handMade_finishAtPointer (hinvariant : s.Invariant) (hs : s.HandMade)
    (hmode : s.mode = .line ∨ s.mode = .circle) : (finishAtPointer s).1.HandMade := by
  have hkind : s.mode.kind ≠ .polyline := by rcases hmode with h | h <;> simp [h, Mode.kind]
  unfold finishAtPointer
  split
  · rename_i shape hediting
    have hidle : ({ s with editing := none } : Session).HandMade := hs.idle rfl rfl
    refine hidle.commit (Geometry.tall_of_kind ?_)
    rw [show (shape.setStop s.pointer).geometry.kind = shape.geometry.kind from
      Geometry.kind_setStop _ _, (hinvariant.fits_geometry hediting).kind]
    exact hkind
  · exact hs

/-- A ring is closed when it is tall. -/
theorem handMade_closePolygon (hs : s.HandMade)
    (htall : ∀ shape, s.editing = some shape → shape.geometry.Tall) :
    (closePolygon s).1.HandMade := by
  unfold closePolygon
  split
  · exact hs
  · rename_i shape hediting
    have hidle : ({ s with editing := none } : Session).HandMade := hs.idle rfl rfl
    refine hidle.commit ?_
    show ((shape.geometry.vertices.head?.bind shape.pushVertex?).getD shape).geometry.Tall
    cases hpushed : shape.geometry.vertices.head?.bind shape.pushVertex? with
    | none => exact htall shape hediting
    | some closed =>
      obtain ⟨first, -, hclosed⟩ := Option.bind_eq_some_iff.1 hpushed
      exact Shape.tall_pushVertex? (htall shape hediting) hclosed

theorem handMade_extendPolyline {shape : Shape Float} (hs : s.HandMade) (hmode : s.mode = .polyline)
    (hediting : s.editing = some shape) : (extendPolyline shape s).1.HandMade := by
  unfold extendPolyline
  dsimp only
  split
  · split
    · rename_i hthree
      refine handMade_closePolygon hs fun other hother _ => ?_
      obtain rfl := Option.some.inj (hediting.symm.trans hother)
      exact hthree
    · exact hs
  · exact hs.of_mode (by simp [hmode]) rfl

/-- Two vertices are a line, and fewer are discarded. -/
theorem handMade_finishPolyline (hs : s.HandMade) : (finishPolyline s).1.HandMade := by
  unfold finishPolyline
  split
  · exact hs
  · have hidle : ({ s with editing := none } : Session).HandMade := hs.idle rfl rfl
    dsimp only
    split
    · exact hidle.commit (Geometry.tall_of_kind (by simp [Geometry.kind]))
    · rename_i hvertices
      refine hidle.commit fun _ => ?_
      rw [hvertices]
      simp
    · exact hidle

theorem handMade_primaryClick (hinvariant : s.Invariant) (hs : s.HandMade) :
    (primaryClick s).1.HandMade := by
  unfold primaryClick
  split
  · rename_i hmode _
    exact hs.of_mode (by simp [hmode]) rfl
  · rename_i hmode _
    exact hs.of_mode (by simp [hmode]) rfl
  · rename_i hmode _
    exact handMade_finishAtPointer hinvariant hs (.inl hmode)
  · rename_i hmode _
    exact handMade_finishAtPointer hinvariant hs (.inr hmode)
  · rename_i hmode _
    exact hs.of_mode (by simp [hmode]) rfl
  · rename_i hmode hediting
    exact handMade_extendPolyline hs hmode hediting
  · rename_i hmode _
    exact hs.of_mode (by simp [hmode]) rfl
  · exact hs
  · rename_i hmode _
    exact hs.of_mode (by simp [hmode]) rfl
  · exact hs.commit (Geometry.tall_of_kind (by simp [labelShape, Geometry.kind]))
  -- There is no polygon that a click could drop.
  · rename_i hmode
    rw [placeDropped, hs.emptyHanded hmode]
    exact hs

theorem handMade_secondaryClick (hs : s.HandMade) : (secondaryClick s).1.HandMade := by
  unfold secondaryClick
  split
  · exact handMade_finishPolyline hs
  · exact handMade_setMode hs .polyline
  · exact handMade_cancel hs

theorem handMade_applyButtons (hinvariant : s.Invariant) (hs : s.HandMade) (frame : Frame) :
    (applyButtons frame s).1.HandMade := by
  unfold applyButtons
  split
  · exact handMade_primaryClick hinvariant hs
  · split
    · exact handMade_secondaryClick hs
    · exact hs

theorem handMade_dragHandles (hs : s.HandMade) (frame : Frame) :
    (dragHandles frame s).1.HandMade := by
  unfold dragHandles
  split
  · rename_i hmode _
    split
    · exact hs.of_mode (by simp [hmode]) rfl
    · exact hs.of_mode (by simp [hmode]) rfl
  · exact hs

theorem handMade_commitKey (hinvariant : s.Invariant) (hs : s.HandMade) :
    (commitKey s).1.HandMade := by
  unfold commitKey
  split
  · rename_i hmode
    exact handMade_finishAtPointer hinvariant hs (.inl hmode)
  · rename_i hmode
    exact handMade_finishAtPointer hinvariant hs (.inr hmode)
  · exact handMade_finishPolyline hs
  · rename_i hmode hediting
    have hidle : ({ s with editing := none, drag := none } : Session).HandMade := hs.idle rfl rfl
    refine hidle.commit (Geometry.tall_of_kind ?_)
    rw [(hinvariant.fits_geometry hediting).kind, hmode]
    simp [Mode.kind]
  · exact hs

theorem handMade_deleteLast (hs : s.HandMade) : (deleteLast s).1.HandMade := by
  unfold deleteLast
  split
  · exact hs
  · rename_i hpop
    obtain ⟨-, rfl⟩ := Prod.mk.inj hpop
    exact ⟨fun shape hshape => hs.tall shape (List.mem_of_mem_dropLast hshape), hs.emptyHanded⟩

theorem handMade_clearAll (hs : s.HandMade) : (clearAll s).1.HandMade := by
  unfold clearAll
  split
  · exact hs
  · exact ⟨fun shape hshape => absurd hshape List.not_mem_nil, hs.emptyHanded⟩

theorem handMade_applyKeys (hs : s.HandMade) (keys : List Key) :
    (keys.foldl applyKey s).HandMade := by
  induction keys generalizing s with
  | nil => exact hs
  | cons key keys ih => exact ih (by cases key <;> exact hs.congr rfl rfl rfl)

/-- What is made by hand is kept together with what holds of every session. -/
theorem keeps_handMade {t : Transition} (hinvariant : Keeps Invariant t)
    (ht : ∀ {s : Session}, s.Invariant → s.HandMade → (t s).1.HandMade) :
    Keeps (fun s => s.Invariant ∧ s.HandMade) t :=
  fun s hs => ⟨hinvariant s hs.1, ht hs.1 hs.2⟩

theorem keeps_handMade_applyFrame (frame : Frame) (moved : Bool) :
    Keeps (fun s => s.Invariant ∧ s.HandMade) (applyFrame frame moved) := by
  have hfollow := keeps_handMade keeps_followPointer fun _ => handMade_followPointer
  have hbuttons := keeps_handMade (keeps_applyButtons frame) fun hinvariant hs =>
    handMade_applyButtons hinvariant hs frame
  have hdrag := keeps_handMade (keeps_dragHandles frame) fun _ hs => handMade_dragHandles hs frame
  have hcommit := keeps_handMade keeps_commitKey handMade_commitKey
  have hdelete := keeps_handMade keeps_deleteLast fun _ => handMade_deleteLast
  have hclear := keeps_handMade keeps_clearAll fun _ => handMade_clearAll
  intro s hs
  unfold applyFrame
  exact (hfollow.guarded _).andThen (hbuttons.andThen ((hdrag.guarded _).andThen
    ((hcommit.guarded _).andThen ((hdelete.guarded _).andThen (hclear.guarded _))))) s hs

theorem handMade_tick (hinvariant : s.Invariant) (hs : s.HandMade) (frame : Frame) :
    (tick frame s).1.HandMade := by
  have hpointer : ({ s with pointer := s.snapped frame } : Session).HandMade := hs.congr rfl rfl rfl
  have hinvariant : ({ s with pointer := s.snapped frame } : Session).Invariant :=
    hinvariant.congr rfl rfl rfl
  unfold tick
  dsimp only
  split
  · exact hpointer
  · exact (keeps_handMade_applyFrame frame _ _
      ⟨invariant_applyKeys hinvariant frame.keys, handMade_applyKeys hpointer frame.keys⟩).2

/-- Drawing changes no geometry. -/
theorem handMade_render {σ : Type} (hs : s.HandMade) (rasterizer : Rasterizer σ) (state : σ) :
    (s.render rasterizer state).2.1.HandMade := by
  have halike := s.alike_render rasterizer state
  constructor
  · intro shape hshape
    obtain ⟨before, hbefore, hplain⟩ :=
      List.mem_map.1 (halike.diagram ▸ List.mem_map_of_mem hshape)
    rw [(Shape.derived_of_plain_eq hplain).geometry_eq]
    exact hs.tall before hbefore
  · intro hmode
    have hnone := halike.isNone_editing
    rw [hs.emptyHanded hmode] at hnone
    exact Option.isNone_iff_eq_none.1 hnone.symm

end Session

/-! ### Runs -/

/-- An operation that hands in no shapes. -/
def Operation.ByHand : Operation → Prop
  | beginDrop _ | replaceDiagram _ | appendShapes _ => False
  | _ => True

theorem Operation.handMade_perform {s : Session} {op : Operation} (hop : op.ByHand)
    (hinvariant : s.Invariant) (hs : s.HandMade) : (op.perform s).session.HandMade := by
  cases op with
  | tick frame => exact Session.handMade_tick hinvariant hs frame
  | setMode mode => exact Session.handMade_setMode hs mode
  | setModeNamed name =>
    simp only [perform, Session.setModeNamed]
    cases Mode.named? name.toList with
    | none => exact hs
    | some mode => exact Session.handMade_setMode hs mode
  | beginDrop | replaceDiagram | appendShapes => exact hop.elim
  | render rasterizer state => exact Session.handMade_render hs rasterizer state
  | setSettings | setCamera | setViewport => exact hs.congr rfl rfl rfl

theorem handMade_run {ops : List Operation} (hops : ∀ op ∈ ops, op.ByHand) :
    (run ops).session.HandMade := by
  induction ops using List.reverseRecOn with
  | nil => exact ⟨fun _ h => absurd h List.not_mem_nil, fun _ => rfl⟩
  | append_singleton ops op ih =>
    obtain ⟨hbefore, hop⟩ := List.forall_mem_append.1 hops
    rw [run_concat]
    exact Operation.handMade_perform (hop op (List.mem_singleton.2 rfl))
      (reachable_run ops).invariant (ih hbefore)

/-! ### What a host can rely on -/

/-- What is left to be asked of a tall geometry. -/
theorem Geometry.recoverable_iff {g : Geometry Float} (h : g.Tall) :
    g.Recoverable ↔ (∀ radius, g.radius? = some radius → radius.isFinite = true) ∧
      ∀ label, g.text? = some label → Picture.RecoverableLabel label.toList := by
  cases g with
  | polyline => exact iff_of_true (h rfl) (by simp [radius?, text?])
  | line | curve => exact iff_of_true trivial (by simp [radius?, text?])
  | circle => simp [Recoverable, radius?, text?]
  | label => simp [Recoverable, radius?, text?]

/-- What is drawn by hand comes back if and only if the radii are finite and the labels can be told
from the markup around them. -/
theorem run_readsBack_iff {ops : List Operation} (hops : ∀ op ∈ ops, op.ByHand) :
    ReadsBack (run ops).session.diagram.shapes ↔
      ∀ shape ∈ (run ops).session.diagram.shapes,
        (∀ radius, shape.geometry.radius? = some radius → radius.isFinite = true) ∧
        ∀ label, shape.geometry.text? = some label → Picture.RecoverableLabel label.toList := by
  have htall := (handMade_run hops).tall
  rw [readsBack_iff htall]
  exact forall₂_congr fun shape hshape => Geometry.recoverable_iff (htall shape hshape)

/-- A primary click. -/
def Operation.click (pointer : Point Float) : Operation :=
  .tick { pointer, primary := { pressed := true } }

/-- A label with a formula and an escaped percent sign, and a circle around it. -/
def circledLabel : List Operation :=
  [.setMode .label, .setSettings { label := "$x$; 50\\%" }, .click ⟨0, 0⟩, .click ⟨0, 0⟩,
    .setMode .circle, .click ⟨0, 0⟩, .click ⟨2, 0⟩]

theorem run_readsBack_iff_circledLabel :
    (∀ op ∈ circledLabel, op.ByHand) ∧
      (run circledLabel).session.diagram.shapes.map Shape.kind = [.label, .circle] ∧
      ReadsBack (run circledLabel).session.diagram.shapes := by
  have hops : ∀ op ∈ circledLabel, op.ByHand := by
    simp [circledLabel, Operation.ByHand, Operation.click]
  have hwritable : ∀ shape ∈ (run circledLabel).session.diagram.shapes,
      shape.geometry.Writable := by
    decide +kernel
  refine ⟨hops, by decide +kernel, (run_readsBack_iff hops).2 fun shape hshape => ?_⟩
  exact (Geometry.recoverable_iff ((handMade_run hops).tall shape hshape)).1
    (hwritable shape hshape).recoverable

/-- From the percent sign of a label on, the rest of its line is a comment, and the distance of two
points that are far apart is infinite. Neither can be read back. -/
theorem not_readsBack_markup_and_overflow :
    let markup : List Operation :=
      [.setMode .label, .setSettings { label := "50% off" }, .click ⟨0, 0⟩, .click ⟨0, 0⟩]
    let overflow : List Operation := [.setMode .circle, .click ⟨1e200, 0⟩, .click ⟨-1e200, 0⟩]
    (∀ op ∈ markup ++ overflow, op.ByHand) ∧
      ((run markup).session.diagram.shapes.map fun s => s.geometry.text?) = [some "50% off"] ∧
      ¬ ReadsBack (run markup).session.diagram.shapes ∧
      (run overflow).session.diagram.shapes.map Shape.kind = [.circle] ∧
      ¬ ReadsBack (run overflow).session.diagram.shapes := by
  intro markup overflow
  have hunread : ∀ {shapes : List (Shape Float)},
      (Picture.read Picture.Placement.identity (Picture.write shapes)).isOk = false →
        ¬ ReadsBack shapes := by
    rintro shapes hfault ⟨back, hback, -⟩
    rw [hback] at hfault
    cases hfault
  refine ⟨by simp [markup, overflow, Operation.ByHand, Operation.click], by decide +kernel,
    hunread (by decide +kernel), by decide +kernel, hunread (by decide +kernel)⟩

end Draftboard
