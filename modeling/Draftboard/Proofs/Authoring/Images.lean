import Draftboard.Proofs.Authoring.Run

/-!
# Draftboard.Proofs.Authoring.Images

Every image that a rasterizer gives to a session is held until it is released.

* `Session.held` counts the shapes that hold an image, those of the diagram and the one that is being
  made; `freed` counts how often a list of actions releases it.
* A transition `Accounts` for its images: what is held after it and what it released make up what was
  held before. No shape is dropped or changed without its image being released, since only a label
  has one: outside of label mode there is no image to lose (`raster_eq_none`), and inside of it the
  preview hands its image over.
* Drawing adds a holder for each answer. So after any run the holders of an image and its releases
  together are as many as the times that it was given (`run_balance`).
-/

namespace Draftboard

open Transition (Keeps)

/-! ### Counting -/

/-- How often an image is released. -/
def freed (actions : List Action) (image : Raster) : Nat := actions.count (.rasterReleased image)

@[simp] theorem freed_nil (image : Raster) : freed [] image = 0 := rfl

@[simp] theorem freed_append (xs ys : List Action) (image : Raster) :
    freed (xs ++ ys) image = freed xs image + freed ys image :=
  List.count_append

/-- A shape that is dropped releases what it holds. -/
theorem freed_released (s : Shape Float) (image : Raster) :
    freed s.released image = holders [s] image := by
  simp only [Shape.released, freed, holders, List.countP_cons, List.countP_nil]
  cases s.raster with
  | none => rfl
  | some held => simp [List.count_cons]

theorem freed_flatMap_released (shapes : List (Shape Float)) (image : Raster) :
    freed (shapes.flatMap Shape.released) image = holders shapes image := by
  induction shapes with
  | nil => rfl
  | cons s rest ih => rw [List.flatMap_cons, freed_append, freed_released, ih, ← holders_cons]

/-- Releases have nothing to do with requests to redraw. -/
theorem freed_filter_renderNeeded (actions : List Action) (image : Raster) :
    freed (actions.filter (· ≠ .renderNeeded)) image = freed actions image :=
  List.count_filter (by simp)

namespace Session

/-- All shapes of a session. -/
def shapes (s : Session) : List (Shape Float) := s.diagram.shapes ++ s.editing.toList

/-- How many shapes of the session hold an image. -/
def held (s : Session) (image : Raster) : Nat := holders s.shapes image

theorem held_eq (s : Session) (image : Raster) :
    s.held image = holders s.diagram.shapes image + holders s.editing.toList image :=
  holders_append ..

/-- Only labels have images. -/
def Labelled (s : Session) : Prop := ∀ shape ∈ s.shapes, shape.Labelled

theorem Labelled.congr {s t : Session} (h : s.Labelled) (hdiagram : t.diagram = s.diagram)
    (hediting : t.editing = s.editing) : t.Labelled := by
  unfold Labelled shapes
  rw [hdiagram, hediting]
  exact h

/-! ### One transition -/

/-- What a transition comes to, with no image lost. -/
structure Accounts (s : Session) (result : Session × List Action) : Prop where
  conserves : ∀ image, result.1.held image + freed result.2 image = s.held image
  labelled : result.1.Labelled

namespace Accounts

variable {s t : Session} {actions : List Action} {u v : Transition}

theorem refl (h : s.Labelled) : Accounts s (s, []) := ⟨fun _ => rfl, h⟩

theorem congr {s' : Session} {result : Session × List Action} (h : Accounts s' result)
    (hdiagram : s'.diagram = s.diagram) (hediting : s'.editing = s.editing) : Accounts s result := by
  refine ⟨fun image => ?_, h.labelled⟩
  rw [h.conserves image, held_eq, held_eq, hdiagram, hediting]

theorem andThen {r : Session} (hu : Accounts s (u r))
    (hv : (u r).1.Labelled → Accounts (u r).1 (v (u r).1)) : Accounts s (u.andThen v r) := by
  have hv := hv hu.labelled
  refine ⟨fun image => ?_, hv.labelled⟩
  have := hu.conserves image
  have := hv.conserves image
  rw [Transition.andThen_apply, freed_append]
  dsimp only
  omega

theorem guarded (hu : Accounts s (u s)) (hs : s.Labelled) (condition : Session → Bool) :
    Accounts s (u.guarded condition s) := by
  unfold Transition.guarded
  split
  · exact hu
  · exact .refl hs

/-- Shapes without images are put on top, and the one that is being made keeps its image or
releases it. -/
theorem of_push (hs : s.Labelled) (new : List (Shape Float))
    (hdiagram : t.diagram.shapes = s.diagram.shapes ++ new)
    (hnew : ∀ shape ∈ new, shape.raster = none)
    (hediting : ∀ image, holders t.editing.toList image + freed actions image =
      holders s.editing.toList image)
    (hlabelled : ∀ shape ∈ t.editing.toList, shape.Labelled) : Accounts s (t, actions) := by
  refine ⟨fun image => ?_, List.forall_mem_append.2 ⟨fun shape hshape => ?_, hlabelled⟩⟩
  · have := hediting image
    rw [held_eq, held_eq, hdiagram, holders_append, holders_eq_zero hnew]
    dsimp only
    omega
  · rw [hdiagram] at hshape
    rcases List.mem_append.1 hshape with hold | hadded
    · exact hs shape (List.mem_append_left _ hold)
    · exact .of_raster_eq_none (hnew shape hadded)

/-- No image is involved at all. -/
theorem of_bare (hs : s.Labelled) (new : List (Shape Float))
    (hdiagram : t.diagram.shapes = s.diagram.shapes ++ new)
    (hnew : ∀ shape ∈ new, shape.raster = none)
    (hbefore : ∀ shape ∈ s.editing.toList, shape.raster = none)
    (hafter : ∀ shape ∈ t.editing.toList, shape.raster = none)
    (hactions : ∀ image, freed actions image = 0) : Accounts s (t, actions) := by
  refine .of_push hs new hdiagram hnew (fun image => ?_) fun shape hshape =>
    .of_raster_eq_none (hafter shape hshape)
  rw [holders_eq_zero hbefore, holders_eq_zero hafter, hactions]

end Accounts

/-! ### Shapes without images -/

/-- Outside of label mode the shape that is being made has no image. -/
theorem raster_eq_none {s : Session} (hs : s.Invariant) (hl : s.Labelled) (hmode : s.mode ≠ .label) :
    ∀ shape ∈ s.editing.toList, shape.raster = none := by
  intro shape hshape
  by_contra hraster
  have hkind : shape.kind = s.mode.kind := (hs.fits_geometry (Option.mem_toList.1 hshape)).kind
  rw [hl shape (List.mem_append_right _ hshape) hraster] at hkind
  have hlabel : ∀ m : Mode, .label = m.kind → m = .label := by
    intro m hm
    cases m with
    | label => rfl
    | line | circle | polyline | curve | droppedPolygon => cases hm
  exact hmode (hlabel _ hkind)

end Session

theorem Shape.raster_withGeometry_of_none {α : Type} {s : Shape α} (h : s.raster = none)
    (g : Geometry α) : (s.withGeometry g).raster = none := by
  unfold withGeometry
  dsimp only
  split
  · exact h
  · rfl

theorem Shape.raster_drag?_of_none {s t : Shape Float} {p : Point Float} {handle : Option Handle}
    (hs : s.raster = none) (h : s.drag? p handle = some t) : t.raster = none := by
  rcases handle with _ | _ | _ | index
  · cases h
  · obtain rfl := Option.some.inj h
    exact raster_withGeometry_of_none hs _
  · obtain rfl := Option.some.inj h
    exact raster_withGeometry_of_none hs _
  · unfold drag? setControl? at h
    dsimp only at h
    split at h
    · split at h
      · obtain rfl := Option.some.inj h
        exact raster_withGeometry_of_none hs _
      · cases h
    · cases h

theorem Shape.raster_pushVertex?_of_none {s t : Shape Float} {p : Point Float}
    (hs : s.raster = none) (h : s.pushVertex? p = some t) : t.raster = none := by
  unfold pushVertex? at h
  split at h
  · obtain rfl := Option.some.inj h
    exact raster_withGeometry_of_none hs _
  · cases h

/-- What is none for a shape and for what it is changed to is none for the result of a change that
may not apply. -/
theorem Shape.raster_getD_of_none {s : Shape Float} {changed : Option (Shape Float)}
    (hs : s.raster = none) (h : ∀ t, changed = some t → t.raster = none) :
    (changed.getD s).raster = none := by
  cases changed with
  | none => exact hs
  | some t => exact h t rfl

namespace Session

variable {s : Session}

/-! ### The transitions -/

theorem accounts_cancel (hl : s.Labelled) : Accounts s (cancel s) := by
  refine .of_push hl [] (List.append_nil _).symm (by simp) (fun image => ?_) (by simp)
  show holders [] image + freed ((s.editing.map Shape.released).getD []) image = _
  cases s.editing with
  | none => rfl
  | some shape => exact (Nat.zero_add _).trans (freed_released shape image)

theorem accounts_setMode (mode : Mode) (hl : s.Labelled) : Accounts s (setMode mode s) := by
  have hcancel := accounts_cancel hl
  refine ⟨fun image => ?_, hcancel.labelled⟩
  have hreported : freed (if s.mode = mode then [] else [.modeChanged mode]) image = 0 := by
    split <;> rfl
  rw [← hcancel.conserves image]
  show _ + freed ((cancel s).2 ++ _ ++ [.renderNeeded]) image = _
  rw [freed_append, freed_append, hreported]
  rfl

theorem accounts_beginDrop {polygon : Shape Float} (hl : s.Labelled) (hbare : polygon.raster = none) :
    Accounts s (beginDrop polygon s) := by
  unfold beginDrop
  split
  -- What was being made is gone, and the polygon takes its place.
  · have hmode := accounts_setMode .droppedPolygon hl
    have hnone : (setMode .droppedPolygon s).1.editing = none := rfl
    have hpolygon : ∀ image, holders [polygon] image = 0 :=
      holders_eq_zero (by simpa using hbare)
    refine ⟨fun image => ?_, fun shape hshape => ?_⟩
    · rw [← hmode.conserves image, held_eq, held_eq, hnone]
      show _ + holders [polygon] image + _ = _
      rw [hpolygon]
      rfl
    · rcases List.mem_append.1 hshape with hold | hnew
      · exact hmode.labelled shape (List.mem_append_left _ hold)
      · obtain rfl := List.mem_singleton.1 hnew
        exact .of_raster_eq_none hbare
  · exact .refl hl

theorem accounts_replaceDiagram {shapes : List (Shape Float)} (hl : s.Labelled)
    (hbare : ∀ shape ∈ shapes, shape.raster = none) : Accounts s (replaceDiagram shapes s) := by
  refine ⟨fun image => ?_, fun shape hshape => ?_⟩
  · rw [held_eq, held_eq]
    show holders shapes image + _ + freed (_ ++ _) image = _
    rw [holders_eq_zero hbare, freed_append, freed_flatMap_released]
    show 0 + holders s.editing.toList image + (holders s.diagram.shapes image + 0) = _
    omega
  · rcases List.mem_append.1 hshape with hnew | hold
    · exact .of_raster_eq_none (hbare shape hnew)
    · exact hl shape (List.mem_append_right _ hold)

theorem accounts_appendShapes {shapes : List (Shape Float)} (hl : s.Labelled)
    (hbare : ∀ shape ∈ shapes, shape.raster = none) : Accounts s (appendShapes shapes s) :=
  .of_push hl shapes rfl hbare (fun _ => rfl) fun _ hshape => hl _ (List.mem_append_right _ hshape)

/-- In label mode the preview takes its image along, or hands it over to be made anew. -/
theorem accounts_followPointer (hs : s.Invariant) (hl : s.Labelled) :
    Accounts s (followPointer s) := by
  have hfollow : ∀ {shape : Shape Float}, s.editing = some shape → s.mode ≠ .label →
      Accounts s ({ s with editing := some (shape.setStop s.pointer) }, []) := by
    intro shape hediting hmode
    have hnone := raster_eq_none hs hl hmode
    refine .of_bare hl [] (List.append_nil _).symm (by simp) hnone (fun t ht => ?_) fun _ => rfl
    obtain rfl := List.mem_singleton.1 ht
    exact Shape.raster_withGeometry_of_none (hnone shape (by rw [hediting]; simp)) _
  unfold followPointer
  split
  · rename_i hediting hmode
    exact hfollow hediting (by simp [hmode])
  · rename_i hediting hmode
    exact hfollow hediting (by simp [hmode])
  · rename_i shape hediting hmode
    split
    · refine .of_push hl [] (List.append_nil _).symm (by simp) (fun image => ?_) fun t ht => ?_
      · rw [hediting]
        exact (Nat.zero_add _).trans (freed_released shape image)
      · obtain rfl := List.mem_singleton.1 ht
        exact .of_raster_eq_none rfl
    · have hkind : shape.kind = .label := by
        rw [Shape.kind, (hs.fits_geometry hediting).kind, hmode]
        rfl
      have hraster : (shape.setStart s.pointer).raster = shape.raster := if_pos hkind
      refine .of_push hl [] (List.append_nil _).symm (by simp) (fun image => ?_) fun t ht => ?_
      · rw [hediting]
        exact holders_congr hraster image
      · obtain rfl := List.mem_singleton.1 ht
        exact fun _ => (Geometry.kind_setStart _ _).trans hkind
  · exact .refl hl

/-- A shape without an image is taken from being made to the diagram. -/
theorem accounts_commit {shape : Shape Float} {t : Session} (hl : s.Labelled)
    (hdiagram : t.diagram = s.diagram) (hediting : t.editing = none) (hbare : shape.raster = none)
    (hbefore : ∀ shape ∈ s.editing.toList, shape.raster = none) : Accounts s (commit shape t) := by
  refine .of_bare hl [shape] ?_ (by simpa using hbare) hbefore ?_ fun _ => rfl
  · rw [← hdiagram]
    rfl
  · show ∀ shape ∈ t.editing.toList, shape.raster = none
    rw [hediting]
    simp

theorem accounts_finishAtPointer (hs : s.Invariant) (hl : s.Labelled) (hmode : s.mode ≠ .label) :
    Accounts s (finishAtPointer s) := by
  have hnone := raster_eq_none hs hl hmode
  unfold finishAtPointer
  split
  · rename_i shape hediting
    refine accounts_commit hl rfl rfl ?_ hnone
    exact Shape.raster_withGeometry_of_none (hnone shape (by rw [hediting]; simp)) _
  · exact .refl hl

theorem accounts_closePolygon (hs : s.Invariant) (hl : s.Labelled) (hmode : s.mode ≠ .label) :
    Accounts s (closePolygon s) := by
  have hnone := raster_eq_none hs hl hmode
  unfold closePolygon
  split
  · exact .refl hl
  · rename_i shape hediting
    have hshape : shape.raster = none := hnone shape (by rw [hediting]; simp)
    refine accounts_commit hl rfl rfl ?_ hnone
    refine Shape.raster_getD_of_none hshape fun t ht => ?_
    obtain ⟨first, -, hpush⟩ := Option.bind_eq_some_iff.1 ht
    exact Shape.raster_pushVertex?_of_none hshape hpush

theorem accounts_extendPolyline {shape : Shape Float} (hs : s.Invariant) (hl : s.Labelled)
    (hmode : s.mode ≠ .label) (hediting : s.editing = some shape) :
    Accounts s (extendPolyline shape s) := by
  have hnone := raster_eq_none hs hl hmode
  have hshape : shape.raster = none := hnone shape (by rw [hediting]; simp)
  unfold extendPolyline
  dsimp only
  split
  · split
    · exact accounts_closePolygon hs hl hmode
    · exact .refl hl
  · refine .of_bare hl [] (List.append_nil _).symm (by simp) hnone (fun t ht => ?_) fun _ => rfl
    obtain rfl := List.mem_singleton.1 ht
    exact Shape.raster_getD_of_none hshape fun t ht => Shape.raster_pushVertex?_of_none hshape ht

theorem accounts_finishPolyline (hs : s.Invariant) (hl : s.Labelled) (hmode : s.mode ≠ .label) :
    Accounts s (finishPolyline s) := by
  have hnone := raster_eq_none hs hl hmode
  unfold finishPolyline
  split
  · exact .refl hl
  · rename_i shape hediting
    have hshape : shape.raster = none := hnone shape (by rw [hediting]; simp)
    dsimp only
    split
    · exact accounts_commit hl rfl rfl rfl hnone
    · exact accounts_commit hl rfl rfl hshape hnone
    · exact .of_bare hl [] (List.append_nil _).symm (by simp) hnone (by simp) fun _ => rfl

theorem accounts_placeDropped (hs : s.Invariant) (hl : s.Labelled) (hmode : s.mode ≠ .label) :
    Accounts s (placeDropped s) := by
  have hnone := raster_eq_none hs hl hmode
  unfold placeDropped
  split
  · exact .refl hl
  · rename_i polygon hediting
    have hplaced : ∀ style, ((polygon.translate s.pointer).withStyle style).raster = none :=
      fun _ => Shape.raster_withGeometry_of_none (hnone polygon (by rw [hediting]; simp))
        (polygon.geometry.translate s.pointer)
    exact (accounts_commit hl (t := { s with editing := none }) rfl rfl (hplaced _) hnone).andThen
      (accounts_setMode .polyline)

/-- A click that starts a shape starts it without an image. -/
theorem accounts_start {shape : Shape Float} {t : Session} (hl : s.Labelled)
    (hbefore : s.editing = none) (hdiagram : t.diagram = s.diagram)
    (hafter : t.editing = some shape) (hbare : shape.raster = none) : Accounts s (t, []) := by
  refine .of_bare hl [] ?_ (by simp) (by simp [hbefore]) ?_ fun _ => rfl
  · rw [hdiagram, List.append_nil]
  · simpa [hafter] using hbare

theorem accounts_primaryClick (hs : s.Invariant) (hl : s.Labelled) : Accounts s (primaryClick s) := by
  unfold primaryClick
  split
  · rename_i hediting
    exact accounts_start hl hediting rfl rfl rfl
  · rename_i hediting
    exact accounts_start hl hediting rfl rfl rfl
  · rename_i hmode _
    exact accounts_finishAtPointer hs hl (by simp [hmode])
  · rename_i hmode _
    exact accounts_finishAtPointer hs hl (by simp [hmode])
  · rename_i hediting
    exact accounts_start hl hediting rfl rfl rfl
  · rename_i hmode hediting
    exact accounts_extendPolyline hs hl (by simp [hmode]) hediting
  · rename_i hediting
    exact accounts_start hl hediting rfl rfl rfl
  · exact .refl hl
  · rename_i hediting
    exact accounts_start hl hediting rfl rfl rfl
  -- A new label is put into the diagram, and the preview keeps its image.
  · exact .of_push hl [s.labelShape] rfl (by simp [labelShape]) (fun _ => rfl)
      fun _ hshape => hl _ (List.mem_append_right _ hshape)
  · rename_i hmode
    exact accounts_placeDropped hs hl (by simp [hmode])

theorem accounts_secondaryClick (hs : s.Invariant) (hl : s.Labelled) :
    Accounts s (secondaryClick s) := by
  unfold secondaryClick
  split
  · rename_i hmode
    exact accounts_finishPolyline hs hl (by simp [hmode])
  · exact accounts_setMode .polyline hl
  · exact accounts_cancel hl

theorem accounts_applyButtons (frame : Frame) (hs : s.Invariant) (hl : s.Labelled) :
    Accounts s (applyButtons frame s) := by
  unfold applyButtons
  split
  · exact accounts_primaryClick hs hl
  · split
    · exact accounts_secondaryClick hs hl
    · exact .refl hl

theorem accounts_dragHandles (frame : Frame) (hs : s.Invariant) (hl : s.Labelled) :
    Accounts s (dragHandles frame s) := by
  unfold dragHandles
  split
  · rename_i shape hmode hediting
    have hnone := raster_eq_none hs hl (by simp [hmode])
    have hshape : shape.raster = none := hnone shape (by rw [hediting]; simp)
    split
    · refine .of_bare hl [] (List.append_nil _).symm (by simp) hnone (fun t ht => ?_) fun _ => rfl
      obtain rfl := List.mem_singleton.1 ht
      exact Shape.raster_getD_of_none hshape fun t ht => Shape.raster_drag?_of_none hshape ht
    · exact .of_bare hl [] (List.append_nil _).symm (by simp) hnone hnone fun _ => rfl
  · exact .refl hl

theorem accounts_commitKey (hs : s.Invariant) (hl : s.Labelled) : Accounts s (commitKey s) := by
  unfold commitKey
  split
  · rename_i hmode
    exact accounts_finishAtPointer hs hl (by simp [hmode])
  · rename_i hmode
    exact accounts_finishAtPointer hs hl (by simp [hmode])
  · rename_i hmode
    exact accounts_finishPolyline hs hl (by simp [hmode])
  · rename_i shape hmode hediting
    have hnone := raster_eq_none hs hl (by simp [hmode])
    exact accounts_commit hl rfl rfl (hnone shape (by rw [hediting]; simp)) hnone
  · exact .refl hl

theorem accounts_deleteLast (hl : s.Labelled) : Accounts s (deleteLast s) := by
  unfold deleteLast
  split
  · exact .refl hl
  · rename_i shape diagram hpop
    obtain ⟨hlast, rfl⟩ := Prod.mk.inj hpop
    obtain ⟨rest, hrest⟩ := List.getLast?_eq_some_iff.1 hlast
    have hdiagram : s.diagram.shapes.dropLast = rest := by rw [hrest, List.dropLast_concat]
    refine ⟨fun image => ?_, fun t ht => ?_⟩
    · rw [held_eq, held_eq, freed_append, freed_released]
      dsimp only
      rw [hdiagram, hrest, holders_append]
      show _ + (_ + 0) = _
      omega
    · refine hl t ?_
      rcases List.mem_append.1 ht with ht | ht
      · exact List.mem_append_left _ (List.dropLast_subset _ ht)
      · exact List.mem_append_right _ ht

theorem accounts_clearAll (hl : s.Labelled) : Accounts s (clearAll s) := by
  unfold clearAll
  split
  · exact .refl hl
  · refine ⟨fun image => ?_, fun t ht => hl t (List.mem_append_right _ ht)⟩
    rw [held_eq, held_eq, freed_append, freed_flatMap_released]
    show 0 + holders s.editing.toList image + (holders s.diagram.shapes image + 0) = _
    omega

/-- What a frame comes to, step after step: each of them finds labelled shapes and the invariant. -/
theorem accounts_applyFrame (frame : Frame) (moved : Bool) (hs : s.Invariant) (hl : s.Labelled) :
    Accounts s (applyFrame frame moved s) := by
  unfold applyFrame
  dsimp only
  have hs₁ := keeps_followPointer.guarded (fun _ => moved) s hs
  refine ((accounts_followPointer hs hl).guarded hl _).andThen fun hl₁ => ?_
  have hs₂ := keeps_applyButtons frame _ hs₁
  refine (accounts_applyButtons frame hs₁ hl₁).andThen fun hl₂ => ?_
  have hs₃ := (keeps_dragHandles frame).guarded
    (fun _ => !(frame.primary.pressed && s.startsShape)) _ hs₂
  refine ((accounts_dragHandles frame hs₂ hl₂).guarded hl₂ _).andThen fun hl₃ => ?_
  refine ((accounts_commitKey hs₃ hl₃).guarded hl₃ _).andThen fun hl₄ => ?_
  refine ((accounts_deleteLast hl₄).guarded hl₄ _).andThen fun hl₅ => ?_
  exact (accounts_clearAll hl₅).guarded hl₅ _

/-- The keys for the view change no shape. -/
theorem shapes_applyKeys (keys : List Key) (s : Session) :
    (keys.foldl applyKey s).shapes = s.shapes := by
  induction keys generalizing s with
  | nil => rfl
  | cons key keys ih =>
    have hkey : (applyKey s key).shapes = s.shapes := by cases key <;> rfl
    rw [List.foldl_cons, ih, hkey]

theorem accounts_tick (frame : Frame) (hs : s.Invariant) (hl : s.Labelled) :
    Accounts s (tick frame s) := by
  have hpointer : ({ s with pointer := s.snapped frame } : Session).Invariant := hs.congr rfl rfl rfl
  unfold tick
  dsimp only
  split
  · exact ⟨fun _ => rfl, hl⟩
  · generalize (!(s.snapped frame == s.pointer)) = moved
    have hkeys := invariant_applyKeys hpointer frame.keys
    have hshapes := shapes_applyKeys frame.keys { s with pointer := s.snapped frame }
    generalize frame.keys.foldl applyKey { s with pointer := s.snapped frame } = t at hkeys hshapes
    have hlt : t.Labelled := by
      unfold Labelled
      rw [hshapes]
      exact hl
    obtain ⟨hconserves, hlabelled⟩ := accounts_applyFrame frame moved hkeys hlt
    refine ⟨fun image => ?_, hlabelled⟩
    have hredraw : ∀ redraw : Bool, freed (if redraw then [.renderNeeded] else []) image = 0 := by
      intro redraw
      cases redraw <;> rfl
    have hbefore : t.held image = s.held image := congrArg (holders · image) hshapes
    rw [freed_append, freed_filter_renderNeeded, hredraw, ← hbefore, ← hconserves image]
    rfl

end Session

/-! ### Operations and runs -/

/-- An operation that hands in no images. -/
def Operation.Bare : Operation → Prop
  | beginDrop polygon => polygon.raster = none
  | replaceDiagram shapes | appendShapes shapes => ∀ shape ∈ shapes, shape.raster = none
  | _ => True

open Session in
/-- After an operation, what is held and what it released make up what was held before and what the
rasterizer gave. -/
theorem Operation.perform_balance {s : Session} {op : Operation} (hbare : op.Bare)
    (hs : s.Invariant) (hl : s.Labelled) :
    let outcome := op.perform s
    (∀ image, outcome.session.held image + freed outcome.actions image =
      s.held image + outcome.log.answers.count image) ∧ outcome.session.Labelled := by
  have hquiet : ∀ {result : Session × List Action}, Accounts s result →
      (∀ image, result.1.held image + freed result.2 image = s.held image + 0) ∧
        result.1.Labelled := fun h => ⟨h.conserves, h.labelled⟩
  cases op with
  | tick frame => exact hquiet (accounts_tick frame hs hl)
  | setMode mode => exact hquiet (accounts_setMode mode hl)
  | setModeNamed name =>
    cases h : s.setModeNamed name with
    | ok result =>
      simp only [perform, h]
      unfold Session.setModeNamed at h
      split at h
      · obtain rfl := Except.ok.inj h
        exact hquiet (accounts_setMode _ hl)
      · cases h
    | error unknown =>
      simp only [perform, h]
      exact hquiet (.refl hl)
  | beginDrop polygon => exact hquiet (accounts_beginDrop hl hbare)
  | replaceDiagram shapes => exact hquiet (accounts_replaceDiagram hl hbare)
  | appendShapes shapes => exact hquiet (accounts_appendShapes hl hbare)
  | render rasterizer state =>
    obtain ⟨log, hlog, hexplains⟩ :=
      Scene.build_recording s.view rasterizer s.diagram.shapes s.editing state {}
    refine ⟨fun image => ?_, Scene.labelled_build s.view rasterizer hl state⟩
    have hgiven : (s.render rasterizer.recording (state, {})).2.2.2 = log := by
      unfold Session.render
      rw [hlog]
    show _ + 0 = _ + (s.render rasterizer.recording (state, {})).2.2.2.answers.count image
    rw [hgiven]
    exact hexplains image
  | setSettings settings => exact ⟨fun _ => rfl, hl⟩
  | setCamera camera => exact ⟨fun _ => rfl, hl⟩
  | setViewport viewport => exact ⟨fun _ => rfl, hl⟩

/-- What is held and what was released make up what the rasterizer gave. -/
theorem run_balance {ops : List Operation} (hbare : ∀ op ∈ ops, op.Bare) :
    (∀ image, (run ops).session.held image + freed (run ops).actions image =
      (run ops).log.answers.count image) ∧ (run ops).session.Labelled := by
  induction ops using List.reverseRecOn with
  | nil => exact ⟨fun _ => rfl, fun _ h => absurd h List.not_mem_nil⟩
  | append_singleton ops op ih =>
    obtain ⟨hbares, hbare⟩ := List.forall_mem_append.1 hbare
    obtain ⟨hbefore, hl⟩ := ih hbares
    obtain ⟨hop, hl'⟩ := Operation.perform_balance (hbare op (List.mem_singleton.2 rfl))
      (reachable_run ops).invariant hl
    rw [run_concat]
    refine ⟨fun image => ?_, hl'⟩
    have := hbefore image
    have := hop image
    show _ + freed (_ ++ _) image = (Log.append _ _).answers.count image
    rw [freed_append, Log.count_answers_append]
    show (op.perform (run ops).session).session.held image + _ = _
    omega

/-! ### What a host can rely on -/

/-- If no image is made twice and none is a placeholder, then at the end of any run each image that
was made is held by one shape and has not been released, or the other way round. -/
theorem held_or_released {ops : List Operation} (hbare : ∀ op ∈ ops, op.Bare)
    (hfresh : (run ops).log.made.Nodup)
    (hplaceholder : ∀ image ∈ (run ops).log.made, image ∉ (run ops).log.stood) :
    ∀ image ∈ (run ops).log.made,
      (run ops).session.held image + freed (run ops).actions image = 1 := by
  intro image hmade
  rw [(run_balance hbare).1 image, Log.answers, List.count_append,
    hfresh.count, if_pos hmade, List.count_eq_zero.2 (hplaceholder image hmade)]

/-- Makes images and numbers them, and cannot typeset a question mark. -/
def numbering : Rasterizer Nat where
  rasterize text next := if text = "$?$" then (none, next) else (some next, next + 1)
  placeholder _ := 0

/-- A label is placed and taken back, while the text of its preview changes. -/
def labelChanges : List Operation :=
  [.setMode .label, .setSettings { label := "$x$" },
    .tick { pointer := ⟨0, 0⟩, primary := { pressed := true } }, .render numbering 1,
    .tick { pointer := ⟨0, 0⟩, primary := { pressed := true } }, .render numbering 2,
    .setSettings { label := "$y$" }, .tick { pointer := ⟨1, 1⟩ }, .render numbering 3,
    .tick { pointer := ⟨1, 1⟩, keys := [.deleteLast] }]

/-- The first image was that of the preview and the second that of the label; both are released, and
the third is that of the new preview. -/
theorem held_or_released_labelChanges :
    (∀ op ∈ labelChanges, op.Bare) ∧ (run labelChanges).log.made = [1, 2, 3] ∧
      (run labelChanges).log.stood = [] ∧ freed (run labelChanges).actions 3 = 0 ∧
      ∀ image ∈ (run labelChanges).log.made,
        (run labelChanges).session.held image + freed (run labelChanges).actions image = 1 := by
  have hbare : ∀ op ∈ labelChanges, op.Bare := by simp [labelChanges, Operation.Bare]
  have hmade : (run labelChanges).log.made = [1, 2, 3] := by decide +kernel
  have hstood : (run labelChanges).log.stood = [] := by decide +kernel
  refine ⟨hbare, hmade, hstood, by decide +kernel, ?_⟩
  refine held_or_released hbare ?_ ?_
  · rw [hmade]
    decide
  · rw [hstood]
    simp

/-- If no image is made twice and none is a placeholder, an image that was made is held by no shape
once an operation has released it. A placeholder that an operation has released is still held by the
other labels that it was given to. -/
theorem not_held_of_released {ops : List Operation} {op : Operation} {image : Raster}
    (hbare : ∀ o ∈ ops ++ [op], o.Bare)
    (hfresh : (run (ops ++ [op])).log.made.Nodup)
    (hplaceholder : ∀ i ∈ (run (ops ++ [op])).log.made, i ∉ (run (ops ++ [op])).log.stood)
    (hreleased : .rasterReleased image ∈ (op.perform (run ops).session).actions) :
    let after := run (ops ++ [op])
    (image ∈ after.log.made → after.session.held image = 0) ∧
      (image ∈ after.log.stood →
        after.session.held image + freed after.actions image = after.log.stood.count image) ∧
      (image ∈ after.log.made ∨ image ∈ after.log.stood) := by
  intro after
  have hbalance : after.session.held image + freed after.actions image =
      after.log.made.count image + after.log.stood.count image :=
    ((run_balance hbare).1 image).trans List.count_append
  have hfreed : 0 < freed after.actions image := by
    show 0 < freed (run (ops ++ [op])).actions image
    rw [run_concat]
    exact List.count_pos_iff.2 (List.mem_append_right _ hreleased)
  refine ⟨fun hmade => ?_, fun hstood => ?_, ?_⟩
  · rw [hfresh.count, if_pos hmade, List.count_eq_zero.2 (hplaceholder image hmade)] at hbalance
    omega
  · have hnot : image ∉ after.log.made := fun hmade => hplaceholder image hmade hstood
    rw [List.count_eq_zero.2 hnot] at hbalance
    omega
  -- What is released was given at some time.
  · by_contra hnever
    rw [not_or] at hnever
    rw [List.count_eq_zero.2 hnever.1, List.count_eq_zero.2 hnever.2] at hbalance
    omega

/-- A label that has been drawn is taken back. -/
theorem not_held_of_released_takenBack :
    let ops : List Operation :=
      [.appendShapes [{ geometry := .label ⟨0, 0⟩ "$x$" }, { geometry := .label ⟨1, 0⟩ "$?$" },
        { geometry := .label ⟨2, 0⟩ "$y$" }], .render numbering 1]
    let takeBack : Operation := .tick { pointer := ⟨0, 0⟩, keys := [.deleteLast] }
    .rasterReleased 2 ∈ (takeBack.perform (run ops).session).actions ∧
      (run (ops ++ [takeBack])).log.made = [1, 2] ∧ (run (ops ++ [takeBack])).log.stood = [0] ∧
      (run (ops ++ [takeBack])).session.held 2 = 0 := by
  intro ops takeBack
  have hreleased : .rasterReleased 2 ∈ (takeBack.perform (run ops).session).actions := by
    decide +kernel
  have hmade : (run (ops ++ [takeBack])).log.made = [1, 2] := by decide +kernel
  have hstood : (run (ops ++ [takeBack])).log.stood = [0] := by decide +kernel
  have hbare : ∀ o ∈ ops ++ [takeBack], o.Bare := by simp [ops, takeBack, Operation.Bare]
  have hlaw := not_held_of_released hbare (by rw [hmade]; decide) (by rw [hmade, hstood]; decide)
    hreleased
  exact ⟨hreleased, hmade, hstood, hlaw.1 (by rw [hmade]; decide)⟩

/-- Two labels that cannot be typeset share the placeholder. Taking back one of them releases it, and
the other one still holds it. -/
theorem held_of_released_placeholder :
    let ops : List Operation :=
      [.appendShapes [{ geometry := .label ⟨0, 0⟩ "$?$" }, { geometry := .label ⟨1, 0⟩ "$?$" }],
        .render numbering 1]
    let takeBack : Operation := .tick { pointer := ⟨0, 0⟩, keys := [.deleteLast] }
    (∀ o ∈ ops ++ [takeBack], o.Bare) ∧ (run (ops ++ [takeBack])).log.made = [] ∧
      .rasterReleased 0 ∈ (takeBack.perform (run ops).session).actions ∧
      (run (ops ++ [takeBack])).session.held 0 = 1 := by
  intro ops takeBack
  exact ⟨by simp [ops, takeBack, Operation.Bare], by decide +kernel, by decide +kernel,
    by decide +kernel⟩

end Draftboard
