import Draftboard.Proofs.Authoring.Making
import Draftboard.Proofs.Authoring.Watched

/-!
# Draftboard.Proofs.Authoring.Begun

Where in a run the shape began that is being made.

* `Begun` says that a click began a shape after some operations, and that each operation since then
  found a shape in the making, in the mode of the click. Wherever a run makes a shape that was not
  dropped on it, the run can be cut at the click that began it (`exists_begun`).
* What operations are seen to do, each in the session that it finds, is gathered in order (`gather`):
  the places of the primary clicks (`clicks`), and those to which the pointer was seen to move
  (`moves`).
* Only frames change a shape that is being made (`Operation.perform_cases`). What is said of it is
  therefore proved by induction over `Begun`, with the frames as the steps that matter
  (`Begun.induct`).
-/

namespace Draftboard

open Session (tick)

theorem session_run_concat (ops : List Operation) (op : Operation) :
    (run (ops ++ [op])).session = (op.perform (run ops).session).session := by
  rw [run_concat]
  rfl

/-! ### Cutting a run -/

/-- After the operations `before`, the click of the frame `first` began a shape in mode `m`, and each
of the operations `since` found a shape in the making. -/
inductive Begun (m : Mode) (before : List Operation) (first : Frame) : List Operation → Prop
  | click (hmode : (run before).session.mode = m) (hidle : (run before).session.editing = none)
      (htyping : first.typing = false) (hpressed : first.primary.pressed = true) :
      Begun m before first []
  | later {since : List Operation} (op : Operation) (h : Begun m before first since)
      (hmode : (run (before ++ .tick first :: since)).session.mode = m)
      (hmaking : (run (before ++ .tick first :: since)).session.editing.isSome = true) :
      Begun m before first (since ++ [op])

/-- An operation that leaves a shape in the making found one of the same plain form, or it is a
frame. -/
theorem Operation.perform_cases {s : Session} {op : Operation} {shape : Shape Float}
    (hmode : (op.perform s).session.mode ≠ .droppedPolygon)
    (hmaking : (op.perform s).session.editing = some shape) :
    (∃ frame, op = .tick frame) ∨
      (op.perform s).session.mode = s.mode ∧ (op.perform s).session.pointer = s.pointer ∧
        ∃ found, s.editing = some found ∧ shape.plain = found.plain := by
  have hsame : ∀ {t : Session}, t.mode = s.mode → t.pointer = s.pointer →
      t.editing = s.editing → t.editing = some shape → t.mode = s.mode ∧ t.pointer = s.pointer ∧
        ∃ found, s.editing = some found ∧ shape.plain = found.plain :=
    fun hmode hpointer hediting h => ⟨hmode, hpointer, shape, hediting ▸ h, rfl⟩
  cases op with
  | tick frame => exact .inl ⟨frame, rfl⟩
  -- A change of mode discards the shape.
  | setMode mode => cases hmaking
  | setModeNamed name =>
    right
    simp only [perform, Session.setModeNamed] at hmaking ⊢
    cases hnamed : Mode.named? name.toList with
    | none =>
      rw [hnamed] at hmaking
      exact hsame rfl rfl rfl hmaking
    | some mode =>
      rw [hnamed] at hmaking
      cases hmaking
  | beginDrop polygon =>
    right
    simp only [perform, Session.beginDrop] at hmode hmaking ⊢
    split
    · rename_i hkind
      rw [if_pos hkind] at hmode
      exact absurd rfl hmode
    · rename_i hkind
      rw [if_neg hkind] at hmaking
      exact hsame rfl rfl rfl hmaking
  | replaceDiagram shapes => exact .inr (hsame rfl rfl rfl hmaking)
  | appendShapes shapes => exact .inr (hsame rfl rfl rfl hmaking)
  | render rasterizer state =>
    have halike := s.alike_render rasterizer state
    change (s.render rasterizer state).2.1.editing = some shape at hmaking
    have hediting := halike.editing
    rw [hmaking] at hediting
    obtain ⟨found, hfound, hplain⟩ := Option.map_eq_some_iff.1 hediting
    exact .inr ⟨rfl, rfl, found, hfound, hplain.symm⟩
  | setSettings settings => exact .inr (hsame rfl rfl rfl hmaking)
  | setCamera camera => exact .inr (hsame rfl rfl rfl hmaking)
  | setViewport viewport => exact .inr (hsame rfl rfl rfl hmaking)

/-- The mode in which a shape is being made is the one it was found in. -/
theorem Operation.mode_perform {s : Session} {op : Operation}
    (hmode : (op.perform s).session.mode ≠ .droppedPolygon)
    (hmaking : (op.perform s).session.editing.isSome = true) :
    (op.perform s).session.mode = s.mode := by
  obtain ⟨shape, hshape⟩ := Option.isSome_iff_exists.1 hmaking
  rcases perform_cases hmode hshape with ⟨frame, rfl⟩ | ⟨hsame, -⟩
  · exact Session.mode_tick hmaking
  · exact hsame

/-- A shape that is being made and was not dropped was begun by a click of the run. -/
theorem exists_begun {m : Mode} (hm : m ≠ .droppedPolygon) {ops : List Operation}
    (hmode : (run ops).session.mode = m) (hmaking : (run ops).session.editing.isSome = true) :
    ∃ before first since, ops = before ++ .tick first :: since ∧ Begun m before first since := by
  induction ops using List.reverseRecOn with
  | nil => cases hmaking
  | append_singleton ops op ih =>
    rw [session_run_concat] at hmode hmaking
    have hfound := Operation.mode_perform (hmode ▸ hm) hmaking
    cases hediting : (run ops).session.editing with
    -- The shape is new, so the operation is the click that began it.
    | none =>
      obtain ⟨shape, hshape⟩ := Option.isSome_iff_exists.1 hmaking
      rcases Operation.perform_cases (hmode ▸ hm) hshape with ⟨frame, rfl⟩ | ⟨-, -, found, h, -⟩
      · obtain ⟨htyping, hpressed⟩ := Session.click_of_started hediting hmaking
        exact ⟨ops, frame, [], rfl, .click (hfound ▸ hmode) hediting htyping hpressed⟩
      · rw [hediting] at h
        cases h
    | some shape =>
      have hsome : (run ops).session.editing.isSome = true := by rw [hediting]; rfl
      obtain ⟨before, first, since, hcut, hbegun⟩ := ih (hfound ▸ hmode) hsome
      refine ⟨before, first, since ++ [op], by rw [hcut, List.append_assoc, List.cons_append], ?_⟩
      exact .later op hbegun (hcut ▸ hfound ▸ hmode) (hcut ▸ hsome)

/-! ### What is seen of operations -/

/-- What is seen of operations that are performed after others, each in the session that it finds. -/
def gather {β : Type} (look : Session → Operation → Option β) (before : List Operation) :
    List Operation → List β
  | [] => []
  | op :: ops => (look (run before).session op).toList ++ gather look (before ++ [op]) ops

theorem gather_concat {β : Type} (look : Session → Operation → Option β)
    (before ops : List Operation) (op : Operation) :
    gather look before (ops ++ [op]) =
      gather look before ops ++ (look (run (before ++ ops)).session op).toList := by
  induction ops generalizing before with
  | nil => simp [gather]
  | cons other ops ih =>
    rw [List.cons_append, gather, ih, gather, List.append_assoc, List.append_assoc]
    rfl

/-- The session pointer at a primary click, if the operation is one. While text is typed, nothing is
clicked. -/
def Operation.clicked? (s : Session) : Operation → Option (Point Float)
  | .tick frame =>
    if frame.typing = false ∧ frame.primary.pressed = true then some (s.snapped frame) else none
  | _ => none

/-- The session pointers of the primary clicks among operations that are performed after others. -/
def clicks (before ops : List Operation) : List (Point Float) :=
  gather Operation.clicked? before ops

theorem clicks_concat (before ops : List Operation) (op : Operation) :
    clicks before (ops ++ [op]) =
      clicks before ops ++ (op.clicked? (run (before ++ ops)).session).toList :=
  gather_concat Operation.clicked? before ops op

/-- The session pointer of a frame that finds it elsewhere, if the operation is one. While text is
typed, nobody sees the pointer move. -/
def Operation.moved? (s : Session) : Operation → Option (Point Float)
  | .tick frame => if frame.typing = false ∧ s.sees frame = true then some (s.snapped frame) else none
  | _ => none

/-- Where the pointer is seen to move by operations that are performed after others. -/
def moves (before ops : List Operation) : List (Point Float) :=
  gather Operation.moved? before ops

theorem moves_concat (before ops : List Operation) (op : Operation) :
    moves before (ops ++ [op]) =
      moves before ops ++ (op.moved? (run (before ++ ops)).session).toList :=
  gather_concat Operation.moved? before ops op

/-- An operation other than a frame neither clicks nor moves the pointer. -/
theorem Operation.unseen {s : Session} {op : Operation} (hop : ∀ frame, op ≠ .tick frame) :
    op.clicked? s = none ∧ op.moved? s = none := by
  cases op with
  | tick frame => exact absurd rfl (hop frame)
  | _ => exact ⟨rfl, rfl⟩

/-- What holds of the shape that a click begins, and goes on to hold whatever a frame makes of it,
holds of a shape that is being made, with regard to the operations since the click. What an operation
does to the shape that neither clicks nor moves the pointer does not show in its plain form. -/
theorem Begun.induct {m : Mode} {P : List Operation → Shape Float → Prop} {before : List Operation}
    {first : Frame}
    (hclick : ∀ shape, (run before).session.mode = m → (run before).session.editing = none →
      first.primary.pressed = true →
      ((run before).session.draws first).1.editing = some shape → P [] shape)
    (hframe : ∀ since frame found shape,
      (run (before ++ .tick first :: since)).session.mode = m →
      (run (before ++ .tick first :: since)).session.editing = some found →
      frame.typing = false → P since found →
      ((run (before ++ .tick first :: since)).session.draws frame).1.editing = some shape →
      P (since ++ [.tick frame]) shape)
    (hunseen : ∀ since op found shape,
      op.clicked? (run (before ++ .tick first :: since)).session = none →
      op.moved? (run (before ++ .tick first :: since)).session = none →
      P since found → shape.plain = found.plain → P (since ++ [op]) shape)
    (hm : m ≠ .droppedPolygon) {since : List Operation} (h : Begun m before first since)
    (hmode : (run (before ++ .tick first :: since)).session.mode = m) {shape : Shape Float}
    (hediting : (run (before ++ .tick first :: since)).session.editing = some shape) :
    P since shape := by
  induction h generalizing shape with
  | click hidle hnone htyping hpressed =>
    rw [session_run_concat] at hediting
    exact hclick shape hidle hnone hpressed ((Session.editing_tick htyping).symm.trans hediting)
  | @later since op h hfound hmaking ih =>
    obtain ⟨found, hfound'⟩ := Option.isSome_iff_exists.1 hmaking
    have hP := ih hfound hfound'
    rw [← List.cons_append, ← List.append_assoc, session_run_concat] at hmode hediting
    by_cases hop : ∃ frame, op = .tick frame
    · obtain ⟨frame, rfl⟩ := hop
      change (tick frame _).1.editing = _ at hediting
      cases htyping : frame.typing with
      -- While text is typed, the shape is left as it is.
      | true =>
        rw [Session.tick_of_typing htyping] at hediting
        obtain rfl := Option.some.inj (hfound'.symm.trans hediting)
        exact hunseen since _ found found (by simp [Operation.clicked?, htyping])
          (by simp [Operation.moved?, htyping]) hP rfl
      | false =>
        exact hframe since frame found shape hfound hfound' htyping hP
          ((Session.editing_tick htyping).symm.trans hediting)
    · obtain ⟨hclicked, hmoved⟩ := Operation.unseen
        (s := (run (before ++ .tick first :: since)).session) fun frame h => hop ⟨frame, h⟩
      rcases Operation.perform_cases (hmode ▸ hm) hediting with h | ⟨-, -, found', h, hplain⟩
      · exact absurd h hop
      · obtain rfl := Option.some.inj (h.symm.trans hfound')
        exact hunseen since op found' shape hclicked hmoved hP hplain

/-- The session pointer is that of the last frame. -/
theorem pointer_run_tick (ops : List Operation) (frame : Frame) :
    (run (ops ++ [.tick frame])).session.pointer = (run ops).session.snapped frame := by
  rw [session_run_concat]
  exact Session.pointer_tick _ frame

/-- Handles are dragged in curve mode only. -/
theorem drag_run_eq_none (ops : List Operation) (hmode : (run ops).session.mode ≠ .curve) :
    (run ops).session.drag = none :=
  (reachable_run ops).invariant.drag_eq_none hmode

end Draftboard
