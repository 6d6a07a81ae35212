import Draftboard.Authoring.Session

/-!
# Draftboard.Proofs.Authoring.Replay

The actions of a frame tell what it did to the diagram.

* `Replays` reads a list of actions as changes of a list of shapes: one is put on top, the top one
  is taken off, or all are removed; the other actions of a frame leave the shapes alone. A host that
  follows it has the shapes of the session, each with its geometry and style.
* `Follows` says this of one result of a transition, and that the mode is the last one reported.
  Every transition has it (`follows_applyButtons`, …), and so have transitions one after another.
* At most one shape is committed in a frame: when the buttons have committed one, nothing is left
  that the key could commit (`NothingToCommit`).
-/

namespace Draftboard

namespace Action

/-- Whether an action of a frame leaves the shapes alone. -/
def keepsShapes : Action → Bool
  | modeChanged _ | rasterReleased _ | renderNeeded => true
  | shapeCommitted .. | shapeRemoved _ | diagramCleared _ | diagramLoaded _ => false

def isCommit : Action → Bool
  | shapeCommitted .. => true
  | _ => false

/-- The mode after an action that is reported in a mode. -/
def modeAfter (current : Mode) : Action → Mode
  | modeChanged mode => mode
  | _ => current

end Action

/-- The shapes before, a list of actions, and the shapes after them. -/
inductive Replays : List (Shape Float) → List Action → List (Shape Float) → Prop
  | done (shapes : List (Shape Float)) : Replays shapes [] shapes
  /-- The index is the number of shapes before. -/
  | committed {shapes after : List (Shape Float)} {actions : List Action} (shape : Shape Float)
      (h : Replays (shapes ++ [shape]) actions after) :
      Replays shapes (.shapeCommitted shapes.length shape.kind :: actions) after
  | removed {shapes after : List (Shape Float)} {actions : List Action} (shape : Shape Float)
      (h : Replays shapes actions after) :
      Replays (shapes ++ [shape]) (.shapeRemoved shape.kind :: actions) after
  | cleared {shapes after : List (Shape Float)} {actions : List Action} (hpos : 0 < shapes.length)
      (h : Replays [] actions after) :
      Replays shapes (.diagramCleared shapes.length :: actions) after
  | kept {shapes after : List (Shape Float)} {action : Action} {actions : List Action}
      (hkeeps : action.keepsShapes = true) (h : Replays shapes actions after) :
      Replays shapes (action :: actions) after

namespace Replays

variable {before between after : List (Shape Float)} {xs ys : List Action}

theorem append (h : Replays before xs between) (h' : Replays between ys after) :
    Replays before (xs ++ ys) after := by
  induction h with
  | done => exact h'
  | committed shape _ ih => exact .committed shape (ih h')
  | removed shape _ ih => exact .removed shape (ih h')
  | cleared hpos _ ih => exact .cleared hpos (ih h')
  | kept hkeeps _ ih => exact .kept hkeeps (ih h')

theorem of_keepsShapes (h : ∀ a ∈ xs, a.keepsShapes = true) (shapes : List (Shape Float)) :
    Replays shapes xs shapes := by
  induction xs with
  | nil => exact .done shapes
  | cons a xs ih =>
    obtain ⟨ha, hxs⟩ := List.forall_mem_cons.1 h
    exact .kept ha (ih hxs)

/-- Actions that leave the shapes alone can be left out. -/
theorem filter {p : Action → Bool} (hp : ∀ a, p a = false → a.keepsShapes = true)
    (h : Replays before xs after) : Replays before (xs.filter p) after := by
  have hchange : ∀ {a : Action}, a.keepsShapes = false → p a = true := by
    intro a ha
    cases hpa : p a with
    | true => rfl
    | false => rw [hp a hpa] at ha; cases ha
  induction h with
  | done shapes => exact .done shapes
  | committed shape _ ih =>
    rw [List.filter_cons_of_pos (hchange rfl)]
    exact .committed shape ih
  | removed shape _ ih =>
    rw [List.filter_cons_of_pos (hchange rfl)]
    exact .removed shape ih
  | cleared hpos _ ih =>
    rw [List.filter_cons_of_pos (hchange rfl)]
    exact .cleared hpos ih
  | @kept _ _ action _ hkeeps _ ih =>
    by_cases hpa : p action = true
    · rw [List.filter_cons_of_pos hpa]
      exact .kept hkeeps ih
    · rw [List.filter_cons_of_neg hpa]
      exact ih

end Replays

namespace Session

/-! ### One transition -/

/-- The result of a transition is what its actions tell of the shapes and of the mode. -/
structure Follows (s : Session) (result : Session × List Action) : Prop where
  shapes : Replays s.diagram.shapes result.2 result.1.diagram.shapes
  mode : result.1.mode = result.2.foldl Action.modeAfter s.mode

namespace Follows

variable {s : Session} {t u : Transition}

theorem refl (s : Session) : Follows s (s, []) := ⟨.done _, rfl⟩

/-- It does not matter what was being made before. -/
theorem congr {s' : Session} {result : Session × List Action} (h : Follows s' result)
    (hdiagram : s'.diagram = s.diagram) (hmode : s'.mode = s.mode) : Follows s result :=
  ⟨hdiagram ▸ h.shapes, hmode ▸ h.mode⟩

theorem andThen (ht : Follows s (t s)) (hu : Follows (t s).1 (u (t s).1)) :
    Follows s (t.andThen u s) := by
  refine ⟨ht.shapes.append hu.shapes, ?_⟩
  rw [Transition.andThen_apply, List.foldl_append, ← ht.mode]
  exact hu.mode

theorem guarded (ht : Follows s (t s)) (condition : Session → Bool) :
    Follows s (t.guarded condition s) := by
  unfold Transition.guarded
  split
  · exact ht
  · exact .refl s

/-- Only images are released. -/
theorem of_released {t : Session} {actions : List Action}
    (h : ∀ a ∈ actions, ∃ raster, a = .rasterReleased raster) (hshapes : t.diagram = s.diagram)
    (hmode : t.mode = s.mode) : Follows s (t, actions) := by
  constructor
  · rw [hshapes]
    refine .of_keepsShapes (fun a ha => ?_) _
    obtain ⟨raster, rfl⟩ := h a ha
    rfl
  · rw [hmode]
    induction actions with
    | nil => rfl
    | cons a actions ih =>
      obtain ⟨⟨raster, rfl⟩, hrest⟩ := List.forall_mem_cons.1 h
      exact ih hrest

end Follows

theorem exists_of_mem_released {shape : Shape Float} {a : Action} (h : a ∈ shape.released) :
    ∃ raster, a = .rasterReleased raster := by
  obtain ⟨raster, -, rfl⟩ := List.mem_map.1 h
  exact ⟨raster, rfl⟩

theorem exists_of_mem_flatMap_released {shapes : List (Shape Float)} {a : Action}
    (h : a ∈ shapes.flatMap Shape.released) : ∃ raster, a = .rasterReleased raster := by
  obtain ⟨shape, -, ha⟩ := List.mem_flatMap.1 h
  exact exists_of_mem_released ha

theorem follows_commit (shape : Shape Float) (s : Session) : Follows s (commit shape s) :=
  ⟨.committed shape (.done _), rfl⟩

theorem exists_of_mem_cancel {s : Session} {a : Action} (h : a ∈ (cancel s).2) :
    ∃ raster, a = .rasterReleased raster := by
  unfold cancel at h
  cases he : s.editing with
  | none => rw [he] at h; cases h
  | some shape => rw [he] at h; exact exists_of_mem_released h

theorem follows_cancel (s : Session) : Follows s (cancel s) :=
  .of_released (fun _ => exists_of_mem_cancel) rfl rfl

/-- A change of mode is reported, unless it is the same mode. -/
theorem follows_setMode (mode : Mode) (s : Session) : Follows s (setMode mode s) := by
  have hchange : Follows (cancel s).1 ({ (cancel s).1 with mode := mode },
      (if s.mode = mode then [] else [.modeChanged mode]) ++ [.renderNeeded]) := by
    constructor
    · refine .of_keepsShapes (fun a ha => ?_) _
      split at ha <;> simp at ha
      · subst ha; rfl
      · rcases ha with rfl | rfl <;> rfl
    · split
      · rename_i hmode
        exact hmode.symm
      · rfl
  have h := (follows_cancel s).andThen (u := fun s' => ({ s' with mode := mode },
      (if s.mode = mode then [] else [.modeChanged mode]) ++ [.renderNeeded])) hchange
  rw [Transition.andThen_apply, ← List.append_assoc] at h
  exact h

theorem follows_followPointer (s : Session) : Follows s (followPointer s) := by
  unfold followPointer
  split
  · exact .of_released (by simp) rfl rfl
  · exact .of_released (by simp) rfl rfl
  · split
    · exact .of_released (fun _ => exists_of_mem_released) rfl rfl
    · exact .of_released (by simp) rfl rfl
  · exact .refl s

theorem follows_finishAtPointer (s : Session) : Follows s (finishAtPointer s) := by
  unfold finishAtPointer
  split
  · exact (follows_commit _ { s with editing := none }).congr rfl rfl
  · exact .refl s

theorem follows_closePolygon (s : Session) : Follows s (closePolygon s) := by
  unfold closePolygon
  split
  · exact .refl s
  · exact (follows_commit _ { s with editing := none }).congr rfl rfl

theorem follows_extendPolyline (shape : Shape Float) (s : Session) :
    Follows s (extendPolyline shape s) := by
  unfold extendPolyline
  dsimp only
  split
  · split
    · exact follows_closePolygon s
    · exact .refl s
  · exact .of_released (by simp) rfl rfl

theorem follows_finishPolyline (s : Session) : Follows s (finishPolyline s) := by
  unfold finishPolyline
  split
  · exact .refl s
  · dsimp only
    split
    · exact (follows_commit _ { s with editing := none }).congr rfl rfl
    · exact (follows_commit _ { s with editing := none }).congr rfl rfl
    · exact .of_released (by simp) rfl rfl

theorem follows_placeDropped (s : Session) : Follows s (placeDropped s) := by
  unfold placeDropped
  split
  · exact .refl s
  -- The commit is reported before the change of mode.
  · exact ((follows_commit _ { s with editing := none }).andThen (follows_setMode .polyline _)).congr
      rfl rfl

theorem follows_primaryClick (s : Session) : Follows s (primaryClick s) := by
  unfold primaryClick
  split
  -- A click that starts a shape or a preview causes no action.
  · exact .of_released (by simp) rfl rfl
  · exact .of_released (by simp) rfl rfl
  · exact follows_finishAtPointer s
  · exact follows_finishAtPointer s
  · exact .of_released (by simp) rfl rfl
  · exact follows_extendPolyline _ s
  · exact .of_released (by simp) rfl rfl
  · exact .refl s
  · exact .of_released (by simp) rfl rfl
  · exact follows_commit _ s
  · exact follows_placeDropped s

theorem follows_secondaryClick (s : Session) : Follows s (secondaryClick s) := by
  unfold secondaryClick
  split
  · exact follows_finishPolyline s
  · exact follows_setMode .polyline s
  · exact follows_cancel s

theorem follows_applyButtons (frame : Frame) (s : Session) : Follows s (applyButtons frame s) := by
  unfold applyButtons
  split
  · exact follows_primaryClick s
  · split
    · exact follows_secondaryClick s
    · exact .refl s

theorem follows_dragHandles (frame : Frame) (s : Session) : Follows s (dragHandles frame s) := by
  unfold dragHandles
  split
  · split
    · exact .of_released (by simp) rfl rfl
    · exact .of_released (by simp) rfl rfl
  · exact .refl s

theorem follows_commitKey (s : Session) : Follows s (commitKey s) := by
  unfold commitKey
  split
  · exact follows_finishAtPointer s
  · exact follows_finishAtPointer s
  · exact follows_finishPolyline s
  · exact (follows_commit _ { s with editing := none, drag := none }).congr rfl rfl
  · exact .refl s

/-- The top shape is taken off and named by its kind. -/
theorem follows_deleteLast (s : Session) : Follows s (deleteLast s) := by
  unfold deleteLast
  split
  · exact .refl s
  · rename_i shape diagram hpop
    obtain ⟨hlast, rfl⟩ := Prod.mk.inj hpop
    obtain ⟨rest, hrest⟩ := List.getLast?_eq_some_iff.1 hlast
    have hreleased : ∀ a ∈ shape.released, a.keepsShapes = true := by
      intro a ha
      obtain ⟨raster, rfl⟩ := exists_of_mem_released ha
      rfl
    have hmode : Follows s (s, shape.released) :=
      .of_released (fun _ => exists_of_mem_released) rfl rfl
    constructor
    -- The images of the shape are released before it is reported.
    · refine (Replays.of_keepsShapes hreleased _).append ?_
      show Replays s.diagram.shapes _ s.diagram.shapes.dropLast
      rw [hrest, List.dropLast_concat]
      exact .removed shape (.done rest)
    · rw [List.foldl_append, ← hmode.mode]
      rfl

theorem follows_clearAll (s : Session) : Follows s (clearAll s) := by
  unfold clearAll
  split
  · exact .refl s
  · rename_i hempty
    have hpos : 0 < s.diagram.shapes.length := by
      rw [List.isEmpty_iff] at hempty
      exact List.length_pos_iff.2 hempty
    have hmode : Follows s (s, s.diagram.shapes.flatMap Shape.released) :=
      .of_released (fun _ => exists_of_mem_flatMap_released) rfl rfl
    exact ⟨hmode.shapes.append (.cleared hpos (.done [])), by
      rw [List.foldl_append, ← hmode.mode]; rfl⟩

theorem follows_applyFrame (frame : Frame) (moved : Bool) (s : Session) :
    Follows s (applyFrame frame moved s) := by
  unfold applyFrame
  dsimp only
  refine ((follows_followPointer s).guarded _).andThen ?_
  refine (follows_applyButtons frame _).andThen ?_
  refine ((follows_dragHandles frame _).guarded _).andThen ?_
  refine ((follows_commitKey _).guarded _).andThen ?_
  exact ((follows_deleteLast _).guarded _).andThen ((follows_clearAll _).guarded _)

/-! ### At most one commit -/

/-- How many shapes are committed by a list of actions. -/
def commits (actions : List Action) : Nat := actions.countP Action.isCommit

@[simp] theorem commits_nil : commits [] = 0 := rfl

@[simp] theorem commits_append (xs ys : List Action) :
    commits (xs ++ ys) = commits xs + commits ys :=
  List.countP_append

theorem commits_of_released {actions : List Action}
    (h : ∀ a ∈ actions, ∃ raster, a = .rasterReleased raster) : commits actions = 0 := by
  refine List.countP_eq_zero.2 fun a ha => ?_
  obtain ⟨raster, rfl⟩ := h a ha
  simp [Action.isCommit]

/-- The commit key finds nothing: a label is placed by clicks only. -/
def NothingToCommit (s : Session) : Prop := s.mode = .label ∨ s.editing = none

/-- Nothing is committed, or one shape, after which nothing is left to commit. -/
def CommitsOnce (result : Session × List Action) : Prop :=
  commits result.2 = 0 ∨ (commits result.2 = 1 ∧ result.1.NothingToCommit)

/-- A shape that is no longer being made is committed once. -/
theorem commitsOnce_commit (shape : Shape Float) {s : Session} (h : s.NothingToCommit) :
    CommitsOnce (commit shape s) := .inr ⟨rfl, h⟩

theorem commits_setMode (mode : Mode) (s : Session) : commits (setMode mode s).2 = 0 := by
  have hcancel : commits (cancel s).2 = 0 := commits_of_released fun _ => exists_of_mem_cancel
  show commits ((cancel s).2 ++ (if s.mode = mode then [] else [.modeChanged mode]) ++
    [.renderNeeded]) = 0
  rw [commits_append, commits_append, hcancel]
  split <;> rfl

theorem commits_followPointer (s : Session) : commits (followPointer s).2 = 0 := by
  unfold followPointer
  split
  · rfl
  · rfl
  · split
    · exact commits_of_released fun _ => exists_of_mem_released
    · rfl
  · rfl

theorem commitsOnce_finishAtPointer (s : Session) : CommitsOnce (finishAtPointer s) := by
  unfold finishAtPointer
  split
  · exact commitsOnce_commit _ (.inr rfl)
  · exact .inl rfl

theorem commitsOnce_closePolygon (s : Session) : CommitsOnce (closePolygon s) := by
  unfold closePolygon
  split
  · exact .inl rfl
  · exact commitsOnce_commit _ (.inr rfl)

theorem commitsOnce_extendPolyline (shape : Shape Float) (s : Session) :
    CommitsOnce (extendPolyline shape s) := by
  unfold extendPolyline
  dsimp only
  split
  · split
    · exact commitsOnce_closePolygon s
    · exact .inl rfl
  · exact .inl rfl

theorem commitsOnce_finishPolyline (s : Session) : CommitsOnce (finishPolyline s) := by
  unfold finishPolyline
  split
  · exact .inl rfl
  · dsimp only
    split
    · exact commitsOnce_commit _ (.inr rfl)
    · exact commitsOnce_commit _ (.inr rfl)
    · exact .inl rfl

theorem commitsOnce_placeDropped (s : Session) : CommitsOnce (placeDropped s) := by
  unfold placeDropped
  split
  · exact .inl rfl
  · refine .inr ⟨?_, .inr rfl⟩
    rw [Transition.andThen_apply, commits_append, commits_setMode]
    rfl

theorem commitsOnce_primaryClick (s : Session) : CommitsOnce (primaryClick s) := by
  unfold primaryClick
  split
  · exact .inl rfl
  · exact .inl rfl
  · exact commitsOnce_finishAtPointer s
  · exact commitsOnce_finishAtPointer s
  · exact .inl rfl
  · exact commitsOnce_extendPolyline _ s
  · exact .inl rfl
  · exact .inl rfl
  · exact .inl rfl
  -- A label leaves its preview, which the key does not commit.
  · rename_i hmode _
    exact commitsOnce_commit _ (.inl hmode)
  · exact commitsOnce_placeDropped s

theorem commitsOnce_secondaryClick (s : Session) : CommitsOnce (secondaryClick s) := by
  unfold secondaryClick
  split
  · exact commitsOnce_finishPolyline s
  · exact .inl (commits_setMode .polyline s)
  · exact .inl (commits_of_released fun _ => exists_of_mem_cancel)

theorem commitsOnce_applyButtons (frame : Frame) (s : Session) :
    CommitsOnce (applyButtons frame s) := by
  unfold applyButtons
  split
  · exact commitsOnce_primaryClick s
  · split
    · exact commitsOnce_secondaryClick s
    · exact .inl rfl

/-- A drag causes no action, and makes no shape. -/
theorem dragHandles_quiet (frame : Frame) (s : Session) :
    (dragHandles frame s).2 = [] ∧
      (s.NothingToCommit → (dragHandles frame s).1.NothingToCommit) := by
  unfold dragHandles
  split
  -- A curve is being made, so the key would commit it.
  · rename_i hmode hediting
    refine ⟨by split <;> rfl, fun h => ?_⟩
    rcases h with h | h
    · rw [hmode] at h
      cases h
    · rw [hediting] at h
      cases h
  · exact ⟨rfl, id⟩

theorem commitsOnce_commitKey (s : Session) : CommitsOnce (commitKey s) := by
  unfold commitKey
  split
  · exact commitsOnce_finishAtPointer s
  · exact commitsOnce_finishAtPointer s
  · exact commitsOnce_finishPolyline s
  · exact commitsOnce_commit _ (.inr rfl)
  · exact .inl rfl

theorem commits_commitKey_of_nothing {s : Session} (h : s.NothingToCommit) :
    commits (commitKey s).2 = 0 := by
  rcases h with h | h
  · simp [commitKey, h]
  · unfold commitKey finishAtPointer finishPolyline
    cases s.mode <;> simp [h]

theorem commits_deleteLast (s : Session) : commits (deleteLast s).2 = 0 := by
  unfold deleteLast
  split
  · rfl
  · rw [commits_append, commits_of_released fun _ => exists_of_mem_released]
    rfl

theorem commits_clearAll (s : Session) : commits (clearAll s).2 = 0 := by
  unfold clearAll
  split
  · rfl
  · rw [commits_append, commits_of_released fun _ => exists_of_mem_flatMap_released]
    rfl

/-- A bound on the commits of a transition holds if it is guarded. -/
theorem commits_guarded_le {t : Transition} {s : Session} {n : Nat} (h : commits (t s).2 ≤ n)
    (condition : Session → Bool) : commits (t.guarded condition s).2 ≤ n := by
  unfold Transition.guarded
  split
  · exact h
  · exact Nat.zero_le n

/-- What comes after the buttons commits one shape at most, and none if nothing is left. -/
theorem commits_afterButtons (frame : Frame) (grabs key delete clear : Session → Bool)
    (s : Session) :
    let rest := ((dragHandles frame).guarded grabs).andThen <| (commitKey.guarded key).andThen <|
      (deleteLast.guarded delete).andThen (clearAll.guarded clear)
    commits (rest s).2 ≤ 1 ∧ (s.NothingToCommit → commits (rest s).2 = 0) := by
  have hdrag := commits_guarded_le (t := dragHandles frame) (s := s) (n := 0)
    (by rw [(dragHandles_quiet frame s).1]; exact Nat.le_refl 0) grabs
  have hnothing : s.NothingToCommit → ((dragHandles frame).guarded grabs s).1.NothingToCommit := by
    intro h
    unfold Transition.guarded
    split
    · exact (dragHandles_quiet frame s).2 h
    · exact h
  -- Each session between two transitions gets a name, and the counts are added up.
  simp only [Transition.andThen_apply, commits_append]
  generalize ((dragHandles frame).guarded grabs s).1 = t at hnothing
  have hdelete :=
    commits_guarded_le (Nat.le_of_eq (commits_deleteLast (commitKey.guarded key t).1)) delete
  generalize (deleteLast.guarded delete (commitKey.guarded key t).1).1 = u
  have hclear := commits_guarded_le (Nat.le_of_eq (commits_clearAll u)) clear
  constructor
  · have hkey : commits (commitKey.guarded key t).2 ≤ 1 := by
      refine commits_guarded_le ?_ key
      rcases commitsOnce_commitKey t with h | ⟨h, -⟩ <;> omega
    omega
  · intro h
    have hkey := commits_guarded_le (Nat.le_of_eq (commits_commitKey_of_nothing (hnothing h))) key
    omega

theorem commits_applyFrame_le (frame : Frame) (moved : Bool) (s : Session) :
    commits (applyFrame frame moved s).2 ≤ 1 := by
  have hfollow := commits_guarded_le (Nat.le_of_eq (commits_followPointer s)) fun _ => moved
  unfold applyFrame
  dsimp only
  rw [Transition.andThen_apply, commits_append, Transition.andThen_apply, commits_append]
  generalize (followPointer.guarded (fun _ => moved) s).1 = t
  obtain ⟨hone, hnone⟩ := commits_afterButtons frame
    (fun _ => !(frame.primary.pressed && s.startsShape))
    (fun s => frame.keys.contains .commit && s.drag.isNone)
    (fun s => frame.keys.contains .deleteLast && !s.isConstructing)
    (fun s => frame.keys.contains .clearAll && !s.isConstructing) (applyButtons frame t).1
  rcases commitsOnce_applyButtons frame t with h | ⟨h, hnothing⟩
  · omega
  · have := hnone hnothing
    omega

/-! ### A whole frame -/

theorem diagram_mode_applyKeys (keys : List Key) (s : Session) :
    (keys.foldl applyKey s).diagram = s.diagram ∧ (keys.foldl applyKey s).mode = s.mode := by
  induction keys generalizing s with
  | nil => exact ⟨rfl, rfl⟩
  | cons key keys ih =>
    have hkey : (applyKey s key).diagram = s.diagram ∧ (applyKey s key).mode = s.mode := by
      cases key <;> exact ⟨rfl, rfl⟩
    rw [List.foldl_cons, ← hkey.1, ← hkey.2]
    exact ih (applyKey s key)

/-- Requests to redraw tell nothing of the mode. -/
theorem foldl_modeAfter_filter (actions : List Action) (mode : Mode) :
    (actions.filter (· ≠ .renderNeeded)).foldl Action.modeAfter mode =
      actions.foldl Action.modeAfter mode := by
  induction actions generalizing mode with
  | nil => rfl
  | cons a actions ih =>
    by_cases ha : a = .renderNeeded
    · subst ha
      exact ih mode
    · rw [List.filter_cons_of_pos (by simpa using ha), List.foldl_cons, List.foldl_cons, ih]

/-- The requests to redraw of single transitions, made one at the end. -/
def settled (actions : List Action) (redraw : Bool) : List Action :=
  actions.filter (· ≠ .renderNeeded) ++ if redraw then [.renderNeeded] else []

theorem Follows.settled {s t : Session} {actions : List Action} (h : Follows s (t, actions))
    (redraw : Bool) : Follows s (t, settled actions redraw) := by
  constructor
  · refine (h.shapes.filter fun a ha => ?_).append (.of_keepsShapes (fun a ha => ?_) _)
    · obtain rfl : a = .renderNeeded := by simpa using ha
      rfl
    · split at ha
      · obtain rfl := List.mem_singleton.1 ha
        rfl
      · cases ha
  · unfold Session.settled
    rw [List.foldl_append, foldl_modeAfter_filter]
    split <;> exact h.mode

theorem commits_settled_le (actions : List Action) (redraw : Bool) :
    commits (settled actions redraw) ≤ commits actions := by
  have hfilter : commits (actions.filter (· ≠ .renderNeeded)) ≤ commits actions :=
    List.filter_sublist.countP_le
  have hredraw : commits (if redraw then [.renderNeeded] else []) = 0 := by
    cases redraw <;> rfl
  rw [settled, commits_append, hredraw]
  exact hfilter

theorem renderNeeded_not_mem_dropLast_settled (actions : List Action) (redraw : Bool) :
    .renderNeeded ∉ (settled actions redraw).dropLast := by
  have hfilter : .renderNeeded ∉ actions.filter (· ≠ .renderNeeded) := by simp
  unfold settled
  cases redraw with
  | true => rwa [if_pos rfl, List.dropLast_concat]
  | false =>
    rw [if_neg (by decide), List.append_nil]
    exact fun h => hfilter ((List.dropLast_sublist _).mem h)

/-- The actions of a frame, replayed in order, make the shapes after it of the shapes before it. One
shape is committed at most, the mode is the last one reported, and a request to redraw comes at the
end only. -/
theorem tick_replays (s : Session) (frame : Frame) :
    Replays s.diagram.shapes (tick frame s).2 (tick frame s).1.diagram.shapes ∧
      commits (tick frame s).2 ≤ 1 ∧
      (tick frame s).1.mode = (tick frame s).2.foldl Action.modeAfter s.mode ∧
      .renderNeeded ∉ (tick frame s).2.dropLast := by
  unfold tick
  dsimp only
  split
  · exact ⟨.done _, Nat.zero_le 1, rfl, by simp⟩
  -- The keys for the view come first and touch neither diagram nor mode.
  · generalize (!(s.snapped frame == s.pointer)) = moved
    obtain ⟨hdiagram, hmode⟩ :=
      diagram_mode_applyKeys frame.keys { s with pointer := s.snapped frame }
    generalize frame.keys.foldl applyKey { s with pointer := s.snapped frame } = t at hdiagram hmode
    have hfollows : Follows s (applyFrame frame moved t) :=
      (follows_applyFrame frame moved t).congr hdiagram hmode
    have hcommits := commits_applyFrame_le frame moved t
    generalize applyFrame frame moved t = result at hfollows hcommits
    obtain ⟨u, actions⟩ := result
    have hsettled := hfollows.settled (frame.keys.any Key.changesView ||
      !(actions.filter (· ≠ .renderNeeded)).isEmpty || (moved && u.editing.isSome))
    exact ⟨hsettled.shapes, Nat.le_trans (commits_settled_le actions _) hcommits, hsettled.mode,
      renderNeeded_not_mem_dropLast_settled actions _⟩

end Session

end Draftboard
