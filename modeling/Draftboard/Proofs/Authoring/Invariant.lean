import Draftboard.Proofs.Authoring.Reachable
import Draftboard.Proofs.Geometry.Factorial
import Draftboard.Proofs.Scene.Drawn

/-!
# Draftboard.Proofs.Authoring.Invariant

What the mode, the shape that is being made and the dragged handle have to do with each other.

* `Mode.Fits` says which geometry is made in a mode: one of its kind, in polyline mode an open ring
  whose first vertex does not come again, and in curve mode one to six control points.
* `Session.Invariant` adds that a handle is dragged only of a curve that is being made, and that the
  curve has it. It looks at the mode, the geometry and the handle only (`Invariant.congr`).
* Every transition keeps the invariant, one lemma for each; a frame is put together of them
  (`keeps_tick`). So it holds of every reachable session (`Reachable.invariant`).
-/

namespace Draftboard

open Transition (Keeps)

/-- The kind of shape that is made in a mode. -/
def Mode.kind : Mode → Kind
  | line => .line
  | circle => .circle
  | polyline => .polyline
  | curve => .curve
  | label => .label
  | droppedPolygon => .polyline

/-- Vertices of which the first one is not repeated. -/
def OpenRing (vertices : List (Point Float)) : Prop :=
  ∃ first rest, vertices = first :: rest ∧ ∀ v ∈ rest, (first == v) = false

theorem OpenRing.append {vertices : List (Point Float)} (h : OpenRing vertices) {p : Point Float}
    (hp : ¬ (vertices.head? == some p) = true) : OpenRing (vertices ++ [p]) := by
  obtain ⟨first, rest, rfl, hrest⟩ := h
  refine ⟨first, rest ++ [p], rfl, fun v hv => ?_⟩
  rcases List.mem_append.1 hv with hv | hv
  · exact hrest v hv
  · obtain rfl := List.mem_singleton.1 hv
    exact Bool.eq_false_iff.2 hp

/-- A geometry that is made in a mode. -/
structure Mode.Fits (m : Mode) (g : Geometry Float) : Prop where
  kind : g.kind = m.kind
  openRing : m = .polyline → OpenRing g.vertices
  controls : m = .curve → 1 ≤ g.vertices.length ∧ g.vertices.length ≤ 6

namespace Session

/-- The geometry of the shape that is being made. -/
def making (s : Session) : Option (Geometry Float) := s.editing.map Shape.geometry

/-- What holds of every session. -/
structure Invariant (s : Session) : Prop where
  fits : ∀ g, s.making = some g → s.mode.Fits g
  /-- Only handles of a curve that is being made are dragged. -/
  drag : ∀ handle, s.drag = some handle → s.mode = .curve ∧
    ∃ g, s.making = some g ∧ ∀ i, handle = .control i → i < g.vertices.length

namespace Invariant

variable {s t : Session}

/-- The invariant is about the mode, the geometry and the dragged handle. -/
theorem congr (h : s.Invariant) (hmode : t.mode = s.mode) (hmaking : t.making = s.making)
    (hdrag : t.drag = s.drag) : t.Invariant := by
  refine ⟨fun g hg => ?_, fun handle hd => ?_⟩
  · rw [hmaking] at hg
    rw [hmode]
    exact h.fits g hg
  · rw [hdrag] at hd
    rw [hmode, hmaking]
    exact h.drag handle hd

/-- Nothing is being made. -/
theorem idle (hediting : s.editing = none) (hdrag : s.drag = none) : s.Invariant := by
  refine ⟨fun g hg => ?_, fun handle hd => ?_⟩
  · rw [making, hediting] at hg
    cases hg
  · rw [hdrag] at hd
    cases hd

/-- A shape is being made and no handle is dragged. -/
theorem of_fits {shape : Shape Float} (hediting : s.editing = some shape)
    (hfits : s.mode.Fits shape.geometry) (hdrag : s.drag = none) : s.Invariant := by
  refine ⟨fun g hg => ?_, fun handle hd => ?_⟩
  · rw [making, hediting] at hg
    obtain rfl := Option.some.inj hg
    exact hfits
  · rw [hdrag] at hd
    cases hd

theorem fits_geometry (h : s.Invariant) {shape : Shape Float} (hediting : s.editing = some shape) :
    s.mode.Fits shape.geometry :=
  h.fits shape.geometry (by rw [making, hediting]; rfl)

theorem drag_eq_none (h : s.Invariant) (hmode : s.mode ≠ .curve) : s.drag = none := by
  cases hd : s.drag with
  | none => rfl
  | some handle => exact absurd (h.drag handle hd).1 hmode

theorem drag_eq_none_of_editing (h : s.Invariant) (hediting : s.editing = none) :
    s.drag = none := by
  cases hd : s.drag with
  | none => rfl
  | some handle =>
    obtain ⟨-, g, hg, -⟩ := h.drag handle hd
    rw [making, hediting] at hg
    cases hg

end Invariant

end Session

/-! ### Shapes that fit -/

/-- In most modes the kind is all that matters. -/
theorem Mode.fits_of_kind {m : Mode} {g : Geometry Float} (hkind : g.kind = m.kind)
    (hpolyline : m ≠ .polyline) (hcurve : m ≠ .curve) : m.Fits g :=
  ⟨hkind, fun h => absurd h hpolyline, fun h => absurd h hcurve⟩

/-- Dragging a handle of a curve keeps its control points in number. -/
theorem Shape.drag?_curve {s t : Shape Float} {p : Point Float} {handle : Option Handle}
    (hkind : s.kind = .curve) (h : s.drag? p handle = some t) :
    t.kind = .curve ∧ t.geometry.vertices.length = s.geometry.vertices.length := by
  obtain ⟨geometry, style, fan, raster⟩ := s
  cases geometry with
  | curve start controls stop =>
    rcases handle with _ | _ | _ | index
    · cases h
    · obtain rfl := Option.some.inj h
      exact ⟨rfl, rfl⟩
    · obtain rfl := Option.some.inj h
      exact ⟨rfl, rfl⟩
    · change (if index < controls.length then _ else none) = some t at h
      split at h
      · obtain rfl := Option.some.inj h
        exact ⟨rfl, List.length_set⟩
      · cases h
  | line | circle | polyline | label => cases hkind

/-- A handle that is hit is one that the curve has. -/
theorem Shape.lt_of_handleAt {s : Shape Float} {pointer : Point Float} {reach : Float} {i : Nat}
    (h : s.handleAt pointer reach = some (.control i)) : i < s.geometry.vertices.length := by
  obtain ⟨⟨handle, p⟩, hfound, hhandle⟩ := Option.map_eq_some_iff.1 h
  have hmem := List.mem_of_find?_eq_some hfound
  obtain rfl : handle = .control i := hhandle
  obtain ⟨geometry, style, fan, raster⟩ := s
  cases geometry with
  | curve start controls stop =>
    change _ ∈ _ :: _ :: controls.mapIdx _ at hmem
    simp only [List.mem_cons, Prod.mk.injEq, reduceCtorEq, false_and, false_or,
      List.mem_mapIdx, Handle.control.injEq] at hmem
    obtain ⟨j, hj, rfl, -⟩ := hmem
    exact hj
  | line | circle | polyline | label => cases hmem

namespace Session

/-! ### Transitions -/

theorem invariant_cancel (s : Session) : (cancel s).1.Invariant := .idle rfl rfl

theorem invariant_setMode (mode : Mode) (s : Session) :
    (setMode mode s).1.Invariant := .idle rfl rfl

theorem keeps_commit (shape : Shape Float) : Keeps Invariant (commit shape) :=
  fun _ hs => hs.congr rfl rfl rfl

theorem keeps_beginDrop (polygon : Shape Float) : Keeps Invariant (beginDrop polygon) := by
  intro s hs
  unfold beginDrop
  split
  · rename_i hkind
    exact .of_fits rfl (Mode.fits_of_kind (m := .droppedPolygon) hkind (by decide) (by decide)) rfl
  · exact hs

theorem keeps_followPointer : Keeps Invariant followPointer := by
  intro s hs
  have hstop : ∀ {shape : Shape Float}, s.editing = some shape → s.mode ≠ .polyline →
      s.mode ≠ .curve → s.mode.Fits (shape.setStop s.pointer).geometry := fun hediting hp hc =>
    Mode.fits_of_kind ((Geometry.kind_setStop _ _).trans (hs.fits_geometry hediting).kind) hp hc
  unfold followPointer
  split
  -- `line` and `circle`: the end is moved, which changes no kind.
  · rename_i shape hediting hmode
    exact .of_fits rfl (hstop hediting (by simp [hmode]) (by simp [hmode]))
      (hs.drag_eq_none (by simp [hmode]))
  · rename_i shape hediting hmode
    exact .of_fits rfl (hstop hediting (by simp [hmode]) (by simp [hmode]))
      (hs.drag_eq_none (by simp [hmode]))
  -- `label`: the preview is made anew or moved.
  · rename_i shape hediting hmode
    have hdrag := hs.drag_eq_none (by simp [hmode])
    have hfits : ∀ {g : Geometry Float}, g.kind = s.mode.kind → s.mode.Fits g := fun hkind =>
      Mode.fits_of_kind hkind (by simp [hmode]) (by simp [hmode])
    split
    · exact .of_fits rfl (hfits (by rw [hmode]; rfl)) hdrag
    · refine .of_fits rfl (hfits ?_) hdrag
      exact (Geometry.kind_setStart _ _).trans (hs.fits_geometry hediting).kind
  · exact hs

/-- What is finished at the pointer leaves nothing behind. -/
theorem keeps_finishAtPointer : Keeps (fun s => s.Invariant ∧ s.mode ≠ .curve) finishAtPointer := by
  rintro s ⟨hs, hmode⟩
  unfold finishAtPointer
  split
  · exact ⟨.idle rfl (hs.drag_eq_none hmode), hmode⟩
  · exact ⟨hs, hmode⟩

theorem keeps_closePolygon : Keeps (fun s => s.Invariant ∧ s.mode ≠ .curve) closePolygon := by
  rintro s ⟨hs, hmode⟩
  unfold closePolygon
  split
  · exact ⟨hs, hmode⟩
  · exact ⟨.idle rfl (hs.drag_eq_none hmode), hmode⟩

theorem keeps_finishPolyline : Keeps (fun s => s.Invariant ∧ s.mode ≠ .curve) finishPolyline := by
  rintro s ⟨hs, hmode⟩
  unfold finishPolyline
  split
  · exact ⟨hs, hmode⟩
  · dsimp only
    -- Whether it becomes a line, a polyline or nothing, it is not made any more.
    split
    · exact ⟨.idle rfl (hs.drag_eq_none hmode), hmode⟩
    · exact ⟨.idle rfl (hs.drag_eq_none hmode), hmode⟩
    · exact ⟨.idle rfl (hs.drag_eq_none hmode), hmode⟩

theorem keeps_placeDropped : Keeps Invariant placeDropped := by
  intro s hs
  unfold placeDropped
  split
  · exact hs
  · exact invariant_setMode .polyline _

/-- A vertex is added only if it is not the first one, which closes the ring. -/
theorem invariant_extendPolyline {s : Session} {shape : Shape Float} (hs : s.Invariant)
    (hmode : s.mode = .polyline) (hediting : s.editing = some shape) :
    (extendPolyline shape s).1.Invariant := by
  have hfits := hs.fits_geometry hediting
  have hcurve : s.mode ≠ .curve := by simp [hmode]
  unfold extendPolyline
  dsimp only
  split
  · split
    · exact (keeps_closePolygon s ⟨hs, hcurve⟩).1
    · exact hs
  · rename_i hhead
    refine .of_fits rfl ?_ (hs.drag_eq_none hcurve)
    obtain ⟨geometry, style, fan, raster⟩ := shape
    have hkind : geometry.kind = .polyline := by rw [hfits.kind, hmode]; rfl
    cases geometry with
    | polyline vertices =>
      refine ⟨hfits.kind, fun _ => ?_, fun h => absurd h hcurve⟩
      exact (hfits.openRing hmode).append hhead
    | line | circle | curve | label => cases hkind

/-- A new curve has as many control points as the settings say. -/
theorem length_vertices_freshCurve (s : Session) :
    s.freshCurve.geometry.vertices.length = s.settings.controlPoints.val := by
  show (freshControls s.pointer s.settings.controlPoints.val).length = _
  rw [freshControls, List.length_map, List.length_range]

theorem keeps_primaryClick : Keeps Invariant primaryClick := by
  intro s hs
  unfold primaryClick
  split
  -- A line or a circle is started where nothing is being made.
  · rename_i hmode hediting
    exact .of_fits rfl (Mode.fits_of_kind (by rw [hmode]; rfl) (by simp [hmode]) (by simp [hmode]))
      (hs.drag_eq_none_of_editing hediting)
  · rename_i hmode hediting
    exact .of_fits rfl (Mode.fits_of_kind (by rw [hmode]; rfl) (by simp [hmode]) (by simp [hmode]))
      (hs.drag_eq_none_of_editing hediting)
  -- The next click finishes it.
  · rename_i hmode _
    exact (keeps_finishAtPointer s ⟨hs, by simp [hmode]⟩).1
  · rename_i hmode _
    exact (keeps_finishAtPointer s ⟨hs, by simp [hmode]⟩).1
  -- `polyline`: one vertex to begin with, and then one for each click.
  · rename_i hmode hediting
    refine .of_fits rfl ⟨by rw [hmode]; rfl, fun _ => ?_, fun h => ?_⟩
      (hs.drag_eq_none_of_editing hediting)
    · exact ⟨s.pointer, [], rfl, by simp⟩
    · rw [hmode] at h
      cases h
  · rename_i hmode hediting
    exact invariant_extendPolyline hs hmode hediting
  -- `curve`: placed with its control points, and any handle is let go.
  · rename_i hmode hediting
    refine .of_fits rfl ⟨by rw [hmode]; rfl, fun h => ?_, fun _ => ?_⟩ rfl
    · rw [hmode] at h
      cases h
    · rw [length_vertices_freshCurve]
      exact ⟨s.settings.controlPoints.one_le, s.settings.controlPoints.le_six⟩
  · exact hs
  -- `label`: a preview if there is none, and otherwise a copy of it for the diagram.
  · rename_i hmode hediting
    exact .of_fits rfl (Mode.fits_of_kind (by rw [hmode]; rfl) (by simp [hmode]) (by simp [hmode]))
      (hs.drag_eq_none_of_editing hediting)
  · exact keeps_commit _ s hs
  · exact keeps_placeDropped s hs

theorem keeps_secondaryClick : Keeps Invariant secondaryClick := by
  intro s hs
  unfold secondaryClick
  split
  · rename_i hmode
    exact (keeps_finishPolyline s ⟨hs, by simp [hmode]⟩).1
  · exact invariant_setMode .polyline s
  · exact invariant_cancel s

theorem keeps_applyButtons (frame : Frame) : Keeps Invariant (applyButtons frame) := by
  intro s hs
  unfold applyButtons
  split
  · exact keeps_primaryClick s hs
  · split
    · exact keeps_secondaryClick s hs
    · exact hs

/-- A drag moves a handle of the curve, which keeps its control points. -/
theorem keeps_dragHandles (frame : Frame) : Keeps Invariant (dragHandles frame) := by
  intro s hs
  unfold dragHandles
  split
  · rename_i shape hmode hediting
    have hfits := hs.fits_geometry hediting
    have hkind : shape.kind = .curve := by
      show shape.geometry.kind = .curve
      rw [hfits.kind, hmode]
      rfl
    split
    · dsimp only
      generalize hdrag : s.drag.or
        (shape.handleAt frame.pointer (Handle.reach s.camera s.viewport)) = drag
      have hcurve : ((shape.drag? s.pointer drag).getD shape).kind = .curve ∧
          ((shape.drag? s.pointer drag).getD shape).geometry.vertices.length =
            shape.geometry.vertices.length := by
        cases hmoved : shape.drag? s.pointer drag with
        | none => exact ⟨hkind, rfl⟩
        | some moved => exact Shape.drag?_curve hkind hmoved
      refine ⟨fun g hg => ?_, fun handle hd => ⟨hmode, _, rfl, fun i hi => ?_⟩⟩
      · obtain rfl := Option.some.inj hg
        refine ⟨hcurve.1.trans (by rw [hmode]; rfl), fun h => ?_, fun h => ?_⟩
        · rw [hmode] at h
          cases h
        · rw [hcurve.2]
          exact hfits.controls h
      · obtain rfl : drag = some handle := hd
        rw [hcurve.2]
        subst hi
        -- The handle was dragged before, or it has just been hit.
        rcases Option.or_eq_some_iff.1 hdrag with hold | ⟨-, hnew⟩
        · obtain ⟨-, g, hg, hlt⟩ := hs.drag _ hold
          rw [making, hediting] at hg
          obtain rfl := Option.some.inj hg
          exact hlt i rfl
        · exact Shape.lt_of_handleAt hnew
    -- The button is up, and the handle is let go.
    · exact .of_fits hediting hfits rfl
  · exact hs

theorem keeps_commitKey : Keeps Invariant commitKey := by
  intro s hs
  unfold commitKey
  split
  · rename_i hmode
    exact (keeps_finishAtPointer s ⟨hs, by simp [hmode]⟩).1
  · rename_i hmode
    exact (keeps_finishAtPointer s ⟨hs, by simp [hmode]⟩).1
  · rename_i hmode
    exact (keeps_finishPolyline s ⟨hs, by simp [hmode]⟩).1
  · exact .idle rfl rfl
  · exact hs

theorem keeps_deleteLast : Keeps Invariant deleteLast := by
  intro s hs
  unfold deleteLast
  split
  · exact hs
  · exact hs.congr rfl rfl rfl

theorem keeps_clearAll : Keeps Invariant clearAll := by
  intro s hs
  unfold clearAll
  split
  · exact hs
  · exact hs.congr rfl rfl rfl

/-- The keys for the view change neither mode nor shape nor handle. -/
theorem invariant_applyKey {s : Session} (hs : s.Invariant) (key : Key) :
    (applyKey s key).Invariant := by
  cases key <;> exact hs.congr rfl rfl rfl

theorem invariant_applyKeys {s : Session} (hs : s.Invariant) (keys : List Key) :
    (keys.foldl applyKey s).Invariant := by
  induction keys generalizing s with
  | nil => exact hs
  | cons key keys ih => exact ih (invariant_applyKey hs key)

theorem keeps_applyFrame (frame : Frame) (moved : Bool) :
    Keeps Invariant (applyFrame frame moved) := by
  intro s hs
  unfold applyFrame
  exact (keeps_followPointer.guarded _).andThen ((keeps_applyButtons frame).andThen
    (((keeps_dragHandles frame).guarded _).andThen ((keeps_commitKey.guarded _).andThen
      ((keeps_deleteLast.guarded _).andThen (keeps_clearAll.guarded _))))) s hs

theorem keeps_tick (frame : Frame) : Keeps Invariant (tick frame) := by
  intro s hs
  have hpointer : ({ s with pointer := s.snapped frame } : Session).Invariant := hs.congr rfl rfl rfl
  unfold tick
  dsimp only
  split
  · exact hpointer
  · exact keeps_applyFrame frame _ _ (invariant_applyKeys hpointer frame.keys)

/-! ### Reachable sessions -/

theorem invariant_start : ({} : Session).Invariant := .idle rfl rfl

/-- Each thing that a host does keeps the invariant. -/
theorem invariant_step {s t : Session} (h : Step s t) (hs : s.Invariant) : t.Invariant := by
  cases h with
  | tick _ frame => exact keeps_tick frame s hs
  | setMode _ mode => exact invariant_setMode mode s
  | setModeNamed h =>
    unfold setModeNamed at h
    split at h
    · obtain rfl := (Prod.mk.inj (Except.ok.inj h)).1
      exact invariant_setMode _ s
    · cases h
  | beginDrop _ polygon => exact keeps_beginDrop polygon s hs
  | replaceDiagram _ shapes => exact hs.congr rfl rfl rfl
  | appendShapes _ shapes => exact hs.congr rfl rfl rfl
  | render rasterizer _ state =>
    have hmaking := Scene.map_geometry_build s.view rasterizer s.diagram.shapes s.editing state
    exact hs.congr rfl hmaking rfl
  | settings _ settings => exact hs.congr rfl rfl rfl
  | camera _ camera => exact hs.congr rfl rfl rfl
  | viewport _ viewport => exact hs.congr rfl rfl rfl

theorem Reachable.invariant {s : Session} (h : Reachable s) : s.Invariant :=
  h.induct invariant_start fun _ _ => invariant_step

/-! ### What a host can rely on -/

/-- The mode, the shape that is being made and the dragged handle agree. -/
structure Coherent (s : Session) : Prop where
  kind : ∀ shape, s.editing = some shape → shape.kind = s.mode.kind
  /-- A polyline has a vertex, and its first one does not come again. -/
  polyline : s.mode = .polyline → ∀ shape, s.editing = some shape →
    ∃ first rest, shape.geometry = .polyline (first :: rest) ∧ ∀ v ∈ rest, (first == v) = false
  /-- A curve has one to six control points, so that no factorial of its weights is cut off to a word of
  64 bits. -/
  curve : s.mode = .curve → ∀ shape, s.editing = some shape →
    ∃ start controls stop, shape.geometry = .curve start controls stop ∧
      1 ≤ controls.length ∧ controls.length ≤ 6 ∧
      ∀ n < (Curve.controlPolygon start controls stop).length, (factorial n).toNat = n.factorial
  /-- A handle is dragged in curve mode only, of a curve that is being made and has it. -/
  drag : ∀ handle, s.drag = some handle → s.mode = .curve ∧
    ∃ shape, s.editing = some shape ∧ ∀ i, handle = .control i → i < shape.geometry.vertices.length

/-- Every session that a host can get to is coherent. -/
theorem Reachable.coherent {s : Session} (h : Reachable s) : s.Coherent := by
  have hs := h.invariant
  refine ⟨fun shape he => ?_, fun hmode shape he => ?_, fun hmode shape he => ?_, fun handle hd => ?_⟩
  · exact (hs.fits_geometry he).kind
  · have hfits := hs.fits_geometry he
    obtain ⟨first, rest, hvertices, hrest⟩ := hfits.openRing hmode
    have hkind := hfits.kind
    rw [hmode] at hkind
    refine ⟨first, rest, ?_, hrest⟩
    cases hg : shape.geometry with
    | polyline vertices =>
      rw [hg] at hvertices
      exact congrArg Geometry.polyline hvertices
    | line | circle | curve | label => rw [hg] at hkind; cases hkind
  · have hfits := hs.fits_geometry he
    obtain ⟨hone, hsix⟩ := hfits.controls hmode
    have hkind := hfits.kind
    rw [hmode] at hkind
    cases hg : shape.geometry with
    | curve start controls stop =>
      rw [hg] at hone hsix
      refine ⟨start, controls, stop, rfl, hone, hsix, fun n hn => toNat_factorial_of_le ?_⟩
      change controls.length ≤ 6 at hsix
      rw [Curve.length_controlPolygon] at hn
      omega
    | line | circle | polyline | label => rw [hg] at hkind; cases hkind
  · obtain ⟨hmode, g, hg, hcontrol⟩ := hs.drag handle hd
    obtain ⟨shape, he, rfl⟩ := Option.map_eq_some_iff.1 hg
    exact ⟨hmode, shape, he, hcontrol⟩

/-- A curve whose control point is dragged. -/
def draggingCurve : Session :=
  let placed := (tick { pointer := ⟨0, 0⟩, primary := { pressed := true } } (setMode .curve {}).1).1
  (tick { pointer := ⟨1, 1⟩, primary := { held := true } } placed).1

theorem coherent_draggingCurve : Reachable draggingCurve ∧
    draggingCurve.drag = some (.control 0) ∧ draggingCurve.Coherent := by
  have hreachable : Reachable draggingCurve :=
    .step (.step (.step .start (.setMode _ _)) (.tick _ _)) (.tick _ _)
  exact ⟨hreachable, by decide +kernel, hreachable.coherent⟩

end Session

end Draftboard
