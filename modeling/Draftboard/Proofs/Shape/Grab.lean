import Mathlib.Analysis.Real.Sqrt
import Mathlib.Tactic.FieldSimp
import Mathlib.Tactic.Linarith
import Mathlib.Tactic.Positivity
import Draftboard.Proofs.Number.Rational
import Draftboard.Shape.Handle

/-!
# Draftboard.Proofs.Shape.Grab

Handles are grabbed by their distance from the pointer on the screen, with coordinates that are not rounded.

* The conversions between the diagram and the screen undo each other (`Camera.toDiagram_toScreen`,
  `Camera.toScreen_toDiagram`), and distances are multiplied by the pixels of a grid unit on the way to the
  screen (`Camera.squaredDistance_toScreen`).
* The reach of a pointer is divided by the same number on the way to the diagram. So the handle that is
  found is found among the screen images, by a test that has neither pan nor zoom in it
  (`Shape.handleAt_eq`).
-/

namespace Draftboard

/-- The distance between two points. -/
noncomputable def separation (p q : Point ℚ) : ℝ :=
  Real.sqrt (((q.x - p.x) ^ 2 + (q.y - p.y) ^ 2 : ℚ) : ℝ)

section Exact

variable [Scalar.Functions ℚ]

theorem Point.squaredDistance_rat (p q : Point ℚ) :
    p.squaredDistance q = (q.x - p.x) ^ 2 + (q.y - p.y) ^ 2 := by
  rw [pow_two, pow_two]
  rfl

/-- Squares are compared as the lengths are. -/
theorem separation_le_iff (p q : Point ℚ) {r : ℚ} (hr : 0 ≤ r) :
    separation p q ≤ r ↔ p.squaredDistance q ≤ r * r := by
  have hr' : (0 : ℝ) ≤ r := by exact_mod_cast hr
  rw [separation, Real.sqrt_le_left hr', Point.squaredDistance_rat, ← pow_two]
  exact_mod_cast Iff.rfl

/-! ### The size of the screen and of a grid unit -/

theorem Scalar.min_pos {a b : ℚ} (ha : 0 < a) (hb : 0 < b) : 0 < Scalar.min a b := by
  rw [Scalar.min]
  split
  · exact ha
  · split
    · exact hb
    · exact ha

namespace Viewport

variable {v : Viewport ℚ}

theorem baseSpacing_pos (hwidth : 0 < v.width) (hheight : 0 < v.height) : 0 < v.baseSpacing :=
  Scalar.min_pos (div_pos hheight (by simp)) (div_pos hwidth (by simp))

theorem interfaceScale_pos (hwidth : 0 < v.width) (hheight : 0 < v.height) :
    0 < v.interfaceScale :=
  div_pos (baseSpacing_pos hwidth hheight) (Scalar.min_pos (by simp) (by simp))

end Viewport

/-! ### The camera -/

namespace Camera

/-- A camera that the keys for zoom and pan have led to. -/
inductive Reached : Camera ℚ → Prop
  | initial : Reached initial
  | zoomIn {c : Camera ℚ} (h : Reached c) : Reached c.zoomIn
  | zoomOut {c : Camera ℚ} (h : Reached c) : Reached c.zoomOut
  | resetZoom {c : Camera ℚ} (h : Reached c) : Reached c.resetZoom
  | pan {c : Camera ℚ} (h : Reached c) (right up : ℤ) : Reached (c.pan right up)

theorem zoom_withZoom_pos (c : Camera ℚ) (zoom : ℚ) : 0 < (c.withZoom zoom).zoom := by
  have hlow : (0 : ℚ) < Scalar.ratio 1 4 := by norm_num [Scalar.ratio_rat]
  have hclamp : 0 < Scalar.clamp (Scalar.ratio 1 4) (Scalar.ofNat 2) zoom := by
    rw [Scalar.clamp]
    split
    · exact hlow
    · rename_i hge
      split
      · simp
      · exact lt_of_lt_of_le hlow (not_lt.1 hge)
  exact hclamp

/-- Keys keep the zoom positive. -/
theorem Reached.zoom_pos {c : Camera ℚ} (h : c.Reached) : 0 < c.zoom := by
  induction h with
  | initial => simp [Camera.initial]
  | zoomIn _ _ => exact zoom_withZoom_pos _ _
  | zoomOut _ _ => exact zoom_withZoom_pos _ _
  | resetZoom _ _ => simp [Camera.resetZoom]
  | pan _ _ _ ih => exact ih

variable {c : Camera ℚ} {v : Viewport ℚ}

theorem pixelsPerUnit_pos (hwidth : 0 < v.width) (hheight : 0 < v.height) (hzoom : 0 < c.zoom) :
    0 < c.pixelsPerUnit v :=
  mul_pos (Viewport.baseSpacing_pos hwidth hheight) hzoom

theorem toDiagram_toScreen (h : 0 < c.pixelsPerUnit v) (p : Point ℚ) :
    c.toDiagram v (c.toScreen v p) = p := by
  have hne := h.ne'
  ext
  · simp only [toDiagram, toScreen, Point.x_scale_rat, Point.x_sub_rat, Point.x_add_rat,
      Scalar.one_rat]
    field_simp
    ring
  · simp only [toDiagram, toScreen, Point.y_scale_rat, Point.y_sub_rat, Point.y_add_rat,
      Scalar.one_rat]
    field_simp
    ring

theorem toScreen_toDiagram (h : 0 < c.pixelsPerUnit v) (p : Point ℚ) :
    c.toScreen v (c.toDiagram v p) = p := by
  have hne := h.ne'
  ext
  · simp only [toDiagram, toScreen, Point.x_scale_rat, Point.x_sub_rat, Point.x_add_rat,
      Scalar.one_rat]
    field_simp
    ring
  · simp only [toDiagram, toScreen, Point.y_scale_rat, Point.y_sub_rat, Point.y_add_rat,
      Scalar.one_rat]
    field_simp
    ring

/-- On the screen, distances are multiplied by the pixels of a grid unit. -/
theorem squaredDistance_toScreen (c : Camera ℚ) (v : Viewport ℚ) (p q : Point ℚ) :
    (c.toScreen v p).squaredDistance (c.toScreen v q) =
      c.pixelsPerUnit v ^ 2 * p.squaredDistance q := by
  simp only [Point.squaredDistance_rat, toScreen, Point.x_add_rat, Point.y_add_rat,
    Point.x_scale_rat, Point.y_scale_rat]
  ring

/-- A length in pixels and the length in grid units that it is converted to bound the same distances. -/
theorem squaredDistance_le_iff (h : 0 < c.pixelsPerUnit v) (p q : Point ℚ) (pixels : ℚ) :
    p.squaredDistance q ≤ c.lengthToDiagram v pixels * c.lengthToDiagram v pixels ↔
      (c.toScreen v p).squaredDistance (c.toScreen v q) ≤ pixels * pixels := by
  have hlength : c.lengthToDiagram v pixels = pixels / c.pixelsPerUnit v := rfl
  rw [squaredDistance_toScreen, hlength, div_mul_div_comm, ← pow_two (c.pixelsPerUnit v),
    le_div_iff₀ (pow_pos h 2), mul_comm]

end Camera

/-! ### Handles on the screen -/

/-- The radius around a handle, in pixels. -/
def Viewport.handleRadius (v : Viewport ℚ) : ℚ := 10 * v.interfaceScale

theorem Viewport.handleRadius_pos {v : Viewport ℚ} (hwidth : 0 < v.width) (hheight : 0 < v.height) :
    0 < v.handleRadius :=
  mul_pos (by norm_num) (interfaceScale_pos hwidth hheight)

namespace Shape

variable {c : Camera ℚ} {v : Viewport ℚ}

/-- The handles of a shape at their places on the screen. -/
def handlesOnScreen (s : Shape ℚ) (c : Camera ℚ) (v : Viewport ℚ) : List (Handle × Point ℚ) :=
  s.handles.map fun handle => (handle.1, c.toScreen v handle.2)

/-- The handle that is found is the first one on the screen that is near enough to the pointer there. -/
theorem handleAt_eq (hppu : 0 < c.pixelsPerUnit v) (s : Shape ℚ) (pointer : Point ℚ) :
    s.handleAt pointer (Handle.reach c v) = ((s.handlesOnScreen c v).find? fun handle =>
      handle.2.squaredDistance (c.toScreen v pointer) ≤ v.handleRadius * v.handleRadius).map (·.1) := by
  rw [handleAt, handlesOnScreen, List.find?_map, Option.map_map]
  congr 1
  congr 1
  funext handle
  exact decide_eq_decide.2 (Camera.squaredDistance_le_iff hppu handle.2 pointer _)

/-- A handle is near enough in the diagram if and only if it is on the screen. -/
theorem near_iff (hppu : 0 < c.pixelsPerUnit v) (hradius : 0 ≤ v.handleRadius) (p q : Point ℚ) :
    p.squaredDistance q ≤ Handle.reach c v * Handle.reach c v ↔
      separation (c.toScreen v p) (c.toScreen v q) ≤ v.handleRadius :=
  (Camera.squaredDistance_le_iff hppu p q _).trans (separation_le_iff _ _ hradius).symm

theorem handleAt_eq_some_iff (hppu : 0 < c.pixelsPerUnit v) (hradius : 0 ≤ v.handleRadius)
    (s : Shape ℚ) (pointer : Point ℚ) (handle : Handle) :
    s.handleAt pointer (Handle.reach c v) = some handle ↔
      ∃ earlier p later, s.handles = earlier ++ (handle, p) :: later ∧
        separation (c.toScreen v p) (c.toScreen v pointer) ≤ v.handleRadius ∧
        ∀ other ∈ earlier,
          ¬ separation (c.toScreen v other.2) (c.toScreen v pointer) ≤ v.handleRadius := by
  simp only [handleAt, Option.map_eq_some_iff, List.find?_eq_some_iff_append,
    near_iff hppu hradius]
  constructor
  · rintro ⟨⟨_, p⟩, ⟨hfound, earlier, later, hsplit, hearlier⟩, rfl⟩
    exact ⟨earlier, p, later, hsplit, by simpa using hfound, fun other hother => by
      simpa using hearlier other hother⟩
  · rintro ⟨earlier, p, later, hsplit, hfound, hearlier⟩
    exact ⟨(handle, p), ⟨by simpa using hfound, earlier, later, hsplit, fun other hother => by
      simpa using hearlier other hother⟩, rfl⟩

theorem handleAt_eq_none_iff (hppu : 0 < c.pixelsPerUnit v) (hradius : 0 ≤ v.handleRadius)
    (s : Shape ℚ) (pointer : Point ℚ) :
    s.handleAt pointer (Handle.reach c v) = none ↔ ∀ other ∈ s.handles,
      ¬ separation (c.toScreen v other.2) (c.toScreen v pointer) ≤ v.handleRadius := by
  simp only [handleAt, Option.map_eq_none_iff, List.find?_eq_none, near_iff hppu hradius]
  simp

/-- The conversions between the diagram and the screen undo each other, and a pointer grabs the first handle
of a curve that is near enough to it on the screen, whatever the zoom and the pan are. -/
theorem handleAt_onScreen {v : Viewport ℚ} (hwidth : 0 < v.width) (hheight : 0 < v.height) :
    (∀ c : Camera ℚ, c.Reached → 0 < c.zoom) ∧
    ∀ c : Camera ℚ, 0 < c.zoom →
      (∀ p, c.toDiagram v (c.toScreen v p) = p) ∧ (∀ p, c.toScreen v (c.toDiagram v p) = p) ∧
      ∀ (s : Shape ℚ) (start stop pointer : Point ℚ) (controls : List (Point ℚ)),
        s.geometry = .curve start controls stop →
        let near p := separation (c.toScreen v p) (c.toScreen v pointer) ≤ v.handleRadius
        let handles := (.start, start) :: (.stop, stop) ::
          controls.mapIdx fun i p => (.control i, p)
        (∀ handle, s.handleAt pointer (Handle.reach c v) = some handle ↔
          ∃ earlier p later, handles = earlier ++ (handle, p) :: later ∧ near p ∧
            ∀ other ∈ earlier, ¬ near other.2) ∧
        (s.handleAt pointer (Handle.reach c v) = none ↔ ∀ other ∈ handles, ¬ near other.2) ∧
        ∀ c' : Camera ℚ, 0 < c'.zoom → ∀ (t : Shape ℚ) (pointer' : Point ℚ),
          t.handlesOnScreen c' v = s.handlesOnScreen c v →
          c'.toScreen v pointer' = c.toScreen v pointer →
          t.handleAt pointer' (Handle.reach c' v) = s.handleAt pointer (Handle.reach c v) := by
  have hradius := (Viewport.handleRadius_pos hwidth hheight).le
  refine ⟨fun c hc => hc.zoom_pos, fun c hzoom => ?_⟩
  have hppu := Camera.pixelsPerUnit_pos hwidth hheight hzoom
  refine ⟨Camera.toDiagram_toScreen hppu, Camera.toScreen_toDiagram hppu, ?_⟩
  intro s start stop pointer controls hcurve near handles
  have hhandles : s.handles = handles := by
    unfold Shape.handles
    rw [hcurve]
  refine ⟨fun handle => ?_, ?_, fun c' hzoom' t pointer' hplaces hpointer => ?_⟩
  · rw [← hhandles]
    exact handleAt_eq_some_iff hppu hradius s pointer handle
  · rw [← hhandles]
    exact handleAt_eq_none_iff hppu hradius s pointer
  · have hppu' := Camera.pixelsPerUnit_pos hwidth hheight hzoom'
    rw [handleAt_eq hppu', handleAt_eq hppu, hplaces, hpointer]

end Shape

end Exact

/-- A curve seen by a camera that is zoomed and panned and by one that is not, with the pointer a little
below the first of two control points and then away from all handles. -/
theorem Shape.handleAt_onScreen_control : letI : Scalar.Functions ℚ := default
    let v : Viewport ℚ := Viewport.reference
    let c : Camera ℚ := Camera.initial.zoomIn.pan 3 (-2)
    let c' : Camera ℚ := Camera.initial
    let s : Shape ℚ := { geometry := .curve ⟨0, 0⟩ [⟨1, 1⟩, ⟨1, 21 / 20⟩] ⟨2, 0⟩ }
    let pointer : Point ℚ := ⟨1, 49 / 50⟩
    let seen p := c'.toDiagram v (c.toScreen v p)
    0 < v.width ∧ 0 < v.height ∧ 0 < c.zoom ∧ 0 < c'.zoom ∧
      c.toDiagram v (c.toScreen v pointer) = pointer ∧
      (∃ earlier p later, s.handles = earlier ++ (.control 0, p) :: later ∧
        separation (c.toScreen v p) (c.toScreen v pointer) ≤ v.handleRadius) ∧
      s.handleAt ⟨1, 1 / 2⟩ (Handle.reach c v) = none ∧
      Shape.handleAt { geometry := .curve (seen ⟨0, 0⟩) [seen ⟨1, 1⟩, seen ⟨1, 21 / 20⟩] (seen ⟨2, 0⟩) }
        (seen pointer) (Handle.reach c' v) = some (.control 0) := by
  let _ : Scalar.Functions ℚ := default
  intro v c c' s pointer seen
  have hwidth : 0 < v.width := by decide
  have hheight : 0 < v.height := by decide
  obtain ⟨hreached, hcamera⟩ := handleAt_onScreen hwidth hheight
  have hzoom : 0 < c.zoom := hreached c (.pan (.zoomIn .initial) 3 (-2))
  have hzoom' : 0 < c'.zoom := hreached c' .initial
  obtain ⟨hback, -, hgrab⟩ := hcamera c hzoom
  obtain ⟨-, hforth, -⟩ := hcamera c' hzoom'
  obtain ⟨hsome, -, hsame⟩ := hgrab s ⟨0, 0⟩ ⟨2, 0⟩ pointer _ rfl
  have hat : s.handleAt pointer (Handle.reach c v) = some (.control 0) := by decide +kernel
  obtain ⟨earlier, p, later, hsplit, hnear, -⟩ := (hsome _).1 hat
  refine ⟨hwidth, hheight, hzoom, hzoom', hback pointer, ⟨earlier, p, later, hsplit, hnear⟩, ?_, ?_⟩
  · decide +kernel
  · rw [hsame c' hzoom' _ _ ?_ (hforth _), hat]
    simp [handlesOnScreen, handles, seen, hforth, s]

end Draftboard
