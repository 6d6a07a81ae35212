import Draftboard.Authoring.Input
import Draftboard.Authoring.Settings
import Draftboard.Diagram
import Draftboard.Scene.Builder
import Draftboard.Shape.Handle

/-!
# Draftboard.Authoring.Session

Drawing by pointer and keys.

* A session holds the committed diagram and at most one shape that is being made. `Session.tick`
  takes one frame and answers with the actions that its host has to take notice of.
* A tick is a fixed sequence of small transitions: view keys, the pointer, one click, handles,
  and then the keys that commit, take back and clear. Each of them is a `Transition`, which
  yields the actions it causes, and `Transition.andThen` strings them together.
* Drawing never fails. A click that cannot advance the shape is ignored.
-/

namespace Draftboard

/-- A diagram with the shape that is being made and all that the next frame depends on. -/
structure Session where
  diagram : Diagram Float := default
  settings : Settings := {}
  camera : Camera Float := default
  viewport : Viewport Float := default
  mode : Mode := default
  /-- The shape that is being made. In label mode it is the preview of the next label. -/
  editing : Option (Shape Float) := none
  /-- The handle that is being dragged. -/
  drag : Option Handle := none
  /-- The pointer of the last frame, snapped if snapping was on. -/
  pointer : Point Float := Point.origin

/-- A step of a session with the actions it causes. -/
abbrev Transition := Session → Session × List Action

namespace Transition

/-- Leaves the session as it is. -/
def skip : Transition := fun s => (s, [])

/-- One transition and then another; the actions come in that order. -/
def andThen (t u : Transition) : Transition := fun s =>
  let (s, first) := t s
  let (s, second) := u s
  (s, first ++ second)

/-- The transition, if the session satisfies a condition before it. -/
def guarded (condition : Session → Bool) (t : Transition) : Transition := fun s =>
  if condition s then t s else skip s

@[simp] theorem skip_apply (s : Session) : skip s = (s, []) := rfl

theorem andThen_apply (t u : Transition) (s : Session) :
    t.andThen u s = ((u (t s).1).1, (t s).2 ++ (u (t s).1).2) := rfl

theorem andThen_assoc (t u v : Transition) : (t.andThen u).andThen v = t.andThen (u.andThen v) := by
  funext s; simp [andThen]

end Transition

/-- The action that releases an image, if there is one. -/
def Shape.released {α : Type} (s : Shape α) : List Action := s.raster.toList.map .rasterReleased

namespace Session

/-- Whether a shape is half made. The preview of a label does not count. -/
def isConstructing (s : Session) : Bool := s.editing.isSome && s.mode != .label

/-- The diagram point at a screen point, not snapped. -/
def pointerAt (s : Session) (screen : Point Float) : Point Float :=
  s.camera.toDiagram s.viewport screen

/-! ### Committing and discarding -/

/-- Puts a shape on top of the diagram. -/
def commit (shape : Shape Float) : Transition := fun s =>
  ({ s with diagram := s.diagram.push shape }, [.shapeCommitted s.diagram.size shape.kind])

/-- Discards the shape that is being made. -/
def cancel : Transition := fun s =>
  ({ s with editing := none, drag := none }, (s.editing.map Shape.released).getD [])

/-- Changes the mode, which discards the shape that is being made. -/
def setMode (mode : Mode) : Transition := fun s =>
  let (s, released) := cancel s
  ({ s with mode },
    released ++ (if s.mode = mode then [] else [.modeChanged mode]) ++ [.renderNeeded])

/-- Changes the mode by name. -/
def setModeNamed (name : String) (s : Session) : Except UnknownMode (Session × List Action) :=
  match Mode.named? name.toList with
  | some mode => .ok (setMode mode s)
  | none => .error ⟨name⟩

/-- Picks up a polygon, whose vertices are offsets from the pointer. A shape of another kind is
ignored. -/
def beginDrop (polygon : Shape Float) : Transition := fun s =>
  if polygon.kind = .polyline then
    let (s, actions) := setMode .droppedPolygon s
    ({ s with editing := some polygon }, actions)
  else (s, [])

/-! ### Loading -/

/-- Puts shapes in the place of the committed ones. -/
def replaceDiagram (shapes : List (Shape Float)) : Transition := fun s =>
  ({ s with diagram := ⟨shapes⟩ },
    s.diagram.shapes.flatMap Shape.released ++ [.diagramLoaded shapes.length, .renderNeeded])

/-- Puts shapes on top of the committed ones. -/
def appendShapes (shapes : List (Shape Float)) : Transition := fun s =>
  ({ s with diagram := s.diagram.append shapes }, [.diagramLoaded shapes.length, .renderNeeded])

/-! ### Keys for the view -/

/-- The effect of a key on the view and the settings. -/
def applyKey (s : Session) : Key → Session
  | .toggleSnap => { s with settings := { s.settings with snap := !s.settings.snap } }
  | .toggleWireframe => { s with settings := { s.settings with wireframe := !s.settings.wireframe } }
  | .zoomIn => { s with camera := s.camera.zoomIn }
  | .zoomOut => { s with camera := s.camera.zoomOut }
  | .zoomReset => { s with camera := s.camera.resetZoom }
  | .panLeft => { s with camera := s.camera.pan (-1) 0 }
  | .panRight => { s with camera := s.camera.pan 1 0 }
  | .panUp => { s with camera := s.camera.pan 0 1 }
  | .panDown => { s with camera := s.camera.pan 0 (-1) }
  | .moreControlPoints =>
    { s with settings := { s.settings with controlPoints := s.settings.controlPoints.more } }
  | .fewerControlPoints =>
    { s with settings := { s.settings with controlPoints := s.settings.controlPoints.fewer } }
  | .commit | .deleteLast | .clearAll => s

/-! ### Following the pointer -/

/-- The label that a click places. -/
def labelShape (s : Session) : Shape Float :=
  { geometry := .label s.pointer s.settings.label, style := s.settings.labelStyle }

/-- Whether a geometry is a label of another text. -/
def showsOtherText (text : String) : Geometry Float → Bool
  | .label _ shown => shown != text
  | _ => false

/-- Keeps the end of a line, the rim of a circle and the preview of a label at the pointer. A
preview of another text than that of the settings is made anew. -/
def followPointer : Transition := fun s =>
  match s.editing, s.mode with
  | some shape, .line | some shape, .circle =>
    ({ s with editing := some (shape.setStop s.pointer) }, [])
  | some shape, .label =>
    if showsOtherText s.settings.label shape.geometry then
      ({ s with editing := some s.labelShape }, shape.released)
    else ({ s with editing := some (shape.setStart s.pointer) }, [])
  | _, _ => (s, [])

/-! ### Clicks -/

/-- Moves the end of the shape that is being made to the pointer and commits it. -/
def finishAtPointer : Transition := fun s =>
  match s.editing with
  | some shape => commit (shape.setStop s.pointer) { s with editing := none }
  | none => (s, [])

/-- Where the end of a new line or circle lies until the pointer moves: a little beside the
start, so that the shape is never a single point. -/
def freshEnd (p : Point Float) : Point Float := p + ⟨Scalar.ratio 1 100, Scalar.ratio 1 100⟩

/-- The control points of a new curve: evenly spaced over two units, by turns above and below. -/
def freshControls (p : Point Float) (count : Nat) : List (Point Float) :=
  let step : Float := Scalar.ofNat 2 / Scalar.ofNat (count + 1)
  (List.range count).map fun i =>
    p + ⟨step * Scalar.ofNat (i + 1), if i % 2 = 0 then Scalar.one else -Scalar.one⟩

/-- The curve that a click places. -/
def freshCurve (s : Session) : Shape Float :=
  { geometry := .curve s.pointer (freshControls s.pointer s.settings.controlPoints.val)
      (s.pointer + ⟨Scalar.ofNat 2, Scalar.zero⟩)
    style := s.settings.strokeStyle }

/-- Closes the polygon that is being made on its first vertex and commits it, without
arrowheads. -/
def closePolygon : Transition := fun s =>
  match s.editing with
  | none => (s, [])
  | some shape =>
    let shape := (shape.geometry.vertices.head?.bind shape.pushVertex?).getD shape
    let style := { shape.style with frontArrow := false, backArrow := false, filled := s.settings.filled }
    commit (shape.withStyle style) { s with editing := none }

/-- Adds the pointer to the polyline that is being made. The first vertex closes the polygon if
there are three vertices, and is ignored otherwise. -/
def extendPolyline (shape : Shape Float) : Transition := fun s =>
  let vertices := shape.geometry.vertices
  if vertices.head? == some s.pointer then
    if 3 ≤ vertices.length then closePolygon s else (s, [])
  else ({ s with editing := some ((shape.pushVertex? s.pointer).getD shape) }, [])

/-- Ends an open polyline. Two vertices are a line, and one is discarded. -/
def finishPolyline : Transition := fun s =>
  match s.editing with
  | none => (s, [])
  | some shape =>
    let s := { s with editing := none }
    match shape.geometry.vertices with
    | [a, b] => commit { geometry := .line a b, style := shape.style } s
    | _ :: _ :: _ :: _ => commit shape s
    | _ => (s, [])

/-- Places the dropped polygon at the pointer, in the present colour, fill and weight, and goes on
drawing polylines. -/
def placeDropped : Transition := fun s =>
  match s.editing with
  | none => (s, [])
  | some polygon =>
    let placed := polygon.translate s.pointer
    let style := { placed.style with
      color := s.settings.color, filled := s.settings.filled, thickness := s.settings.thickness }
    (commit (placed.withStyle style)).andThen (setMode .polyline) { s with editing := none }

/-- The effect of a primary click. -/
def primaryClick : Transition := fun s =>
  match s.mode, s.editing with
  | .line, none =>
    let line : Shape Float :=
      { geometry := .line s.pointer (freshEnd s.pointer), style := s.settings.strokeStyle }
    ({ s with editing := some line }, [])
  | .circle, none =>
    let circle : Shape Float :=
      { geometry := .circle s.pointer (freshEnd s.pointer), style := s.settings.fillStyle }
    ({ s with editing := some circle }, [])
  | .line, some _ | .circle, some _ => finishAtPointer s
  | .polyline, none =>
    let polyline : Shape Float :=
      { geometry := .polyline [s.pointer], style := s.settings.strokeStyle }
    ({ s with editing := some polyline }, [])
  | .polyline, some shape => extendPolyline shape s
  | .curve, none => ({ s with editing := some s.freshCurve, drag := none }, [])
  | .curve, some _ => (s, [])
  | .label, none => ({ s with editing := some s.labelShape }, [])
  | .label, some _ => commit s.labelShape s
  | .droppedPolygon, _ => placeDropped s

/-- Whether a primary click starts a shape. -/
def startsShape (s : Session) : Bool := s.editing.isNone && s.mode != .droppedPolygon

/-- The effect of a secondary click: a polyline is ended, anything else is discarded. -/
def secondaryClick : Transition := fun s =>
  match s.mode with
  | .polyline => finishPolyline s
  | .droppedPolygon => setMode .polyline s
  | _ => cancel s

/-- The effect of the buttons of a frame. A primary click takes precedence. -/
def applyButtons (frame : Frame) : Transition := fun s =>
  if frame.primary.pressed then primaryClick s
  else if frame.secondary.pressed then secondaryClick s
  else (s, [])

/-! ### Dragging handles -/

/-- Drags the handles of a curve while the primary button is held. A handle that is grabbed stays
grabbed until the button is let go; the first to be grabbed is looked for at the pointer before
it snaps. -/
def dragHandles (frame : Frame) : Transition := fun s =>
  match s.mode, s.editing with
  | .curve, some shape =>
    if frame.primary.held then
      let drag := s.drag.or (shape.handleAt frame.pointer (Handle.reach s.camera s.viewport))
      ({ s with drag, editing := some ((shape.drag? s.pointer drag).getD shape) }, [])
    else ({ s with drag := none }, [])
  | _, _ => (s, [])

/-! ### Keys for shapes -/

/-- Finishes the shape that is being made, where a key can. -/
def commitKey : Transition := fun s =>
  match s.mode, s.editing with
  | .line, _ | .circle, _ => finishAtPointer s
  | .polyline, _ => finishPolyline s
  | .curve, some shape => commit shape { s with editing := none, drag := none }
  | _, _ => (s, [])

/-- Takes the top shape off the diagram. -/
def deleteLast : Transition := fun s =>
  match s.diagram.pop with
  | (none, _) => (s, [])
  | (some shape, diagram) => ({ s with diagram }, shape.released ++ [.shapeRemoved shape.kind])

/-- Removes all shapes of the diagram. -/
def clearAll : Transition := fun s =>
  if s.diagram.shapes.isEmpty then (s, [])
  else ({ s with diagram := default },
    s.diagram.shapes.flatMap Shape.released ++ [.diagramCleared s.diagram.size])

/-! ### One frame -/

/-- The pointer of a frame as the session sees it. -/
def snapped (s : Session) (frame : Frame) : Point Float :=
  if s.settings.snap then frame.pointer.snapToGrid else frame.pointer

/-- What a frame does to the shapes, after the pointer and the view keys. A click that starts a
shape grabs no handle of it. -/
def applyFrame (frame : Frame) (moved : Bool) : Transition := fun s =>
  let starts := frame.primary.pressed && s.startsShape
  let steps := (followPointer.guarded fun _ => moved).andThen <|
    (applyButtons frame).andThen <|
    ((dragHandles frame).guarded fun _ => !starts).andThen <|
    (commitKey.guarded fun s => frame.keys.contains .commit && s.drag.isNone).andThen <|
    (deleteLast.guarded fun s => frame.keys.contains .deleteLast && !s.isConstructing).andThen <|
    clearAll.guarded fun s => frame.keys.contains .clearAll && !s.isConstructing
  steps s

/-- Advances the session by one frame. While a text field has the keyboard, the pointer moves and
nothing else happens. -/
def tick (frame : Frame) : Transition := fun s =>
  let pointer := s.snapped frame
  let moved := !(pointer == s.pointer)
  let s := { s with pointer }
  if frame.typing then (s, [])
  else
    let (s, actions) := applyFrame frame moved (frame.keys.foldl applyKey s)
    let actions := actions.filter (· ≠ .renderNeeded)
    let redraw := frame.keys.any Key.changesView || !actions.isEmpty || (moved && s.editing.isSome)
    (s, actions ++ if redraw then [.renderNeeded] else [])

/-! ### Drawing -/

/-- What the scene of the session depends on besides its shapes. -/
def view (s : Session) : View Float where
  camera := s.camera
  viewport := s.viewport
  mode := s.mode
  pointer := s.pointer
  light := s.settings.light
  wireframe := s.settings.wireframe

/-- The scene of the session, the session with what its shapes derived, and the state of the
rasterizer. -/
def render {σ : Type} (rasterizer : Rasterizer σ) (s : Session) (state : σ) :
    List (Primitive Float) × Session × σ :=
  let scene := Scene.build s.view rasterizer s.diagram.shapes s.editing state
  (scene.primitives, { s with diagram := ⟨scene.shapes⟩, editing := scene.editing }, scene.state)

/-- `render`, broken off if there is a shape that cannot be drawn. -/
def checkedRender {σ : Type} (rasterizer : Rasterizer σ) (s : Session) (state : σ) :
    Except Crash (List (Primitive Float) × Session × σ) :=
  (Scene.checkedBuild s.view rasterizer s.diagram.shapes s.editing state).map fun scene =>
    (scene.primitives, { s with diagram := ⟨scene.shapes⟩, editing := scene.editing }, scene.state)

end Session

end Draftboard
