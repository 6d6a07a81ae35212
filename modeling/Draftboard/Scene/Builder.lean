import Draftboard.Scene.Primitive

/-!
# Draftboard.Scene.Builder

The display list of a diagram and of the shape that is being made.

* Drawing changes no geometry and no style. It fills in what a shape derives from them: the
  triangles of a filled polygon, and the image of a label between dollar signs.
* Images come from a `Rasterizer` with a state of its own, which is threaded through the
  shapes in drawing order. It is asked once for each label: what it answers is kept on the
  shape, and a failure leaves its placeholder there.
* The checked functions break off where drawing cannot go on (`Crash`): a triangle names a vertex
  that is not there, a circle has too many points, or a curve has too many for its weights. The
  others go on with some value there, and are the same wherever nothing breaks off.
-/

namespace Draftboard

/-- A maker of label images. -/
structure Rasterizer (σ : Type) where
  /-- The image of a text, or nothing if it cannot be typeset. -/
  rasterize : String → σ → Option Raster × σ
  /-- The image that stands for a text that cannot be typeset. -/
  placeholder : σ → Raster

/-- What drawing a shape yields: primitives, the shape with what was derived, and the state of
the rasterizer. -/
structure Drawn (σ α : Type) where
  primitives : List (Primitive α)
  shape : Shape α
  state : σ

namespace View

variable {σ α : Type}

/-! ### Labels -/

/-- The image of a label, made now if it is needed and missing. -/
def labelRaster (rasterizer : Rasterizer σ) (s : Shape α) (state : σ) :
    Option Raster × Shape α × σ :=
  match s.geometry with
  | .label _ text =>
    if Geometry.isMath text then
      match s.raster with
      | some raster => (some raster, s, state)
      | none =>
        let (made, state) := rasterizer.rasterize text state
        let raster := made.getD (rasterizer.placeholder state)
        (some raster, { s with raster := some raster }, state)
    else (none, s, state)
  | _ => (none, s, state)

variable [Scalar α]

/-! ### Shapes -/

/-- The fill of a shape, and the shape with its triangles kept. -/
def fill (v : View α) (offset : Point α) (s : Shape α) : List (Primitive α) × Shape α :=
  if s.style.filled && !v.wireframe then
    match s.triangles with
    | (some fan, s) =>
      let table := s.geometry.vertices.toArray
      let corner i := v.toScreen (table.getD i Point.origin + offset)
      ([.fill (fan.map fun t => (corner t.a, corner t.b, corner t.c)) (s.style.color.display v.light)], s)
    | (none, s) => ([], s)
  else ([], s)

/-- The outline of a shape, or its disc if it is a filled circle. Labels have none. -/
def outline (v : View α) (offset : Point α) (style : Style) : Geometry α → List (Primitive α)
  | .line start stop =>
    v.drawPath style (style.color.display v.light)
      [v.toScreen (start + offset), v.toScreen (stop + offset)]
  | .circle center rim =>
    let center := v.toScreen (center + offset)
    let radius := (v.toScreen (rim + offset)).distance center
    if style.filled && !v.wireframe then [.disc center radius (style.color.display v.light)]
    else [v.stroke style (style.color.display v.light) (circlePoints center radius)]
  | .polyline vertices =>
    v.drawPath style (style.color.display v.light) (vertices.map fun p => v.toScreen (p + offset))
  | .curve start controls stop =>
    v.drawPath style (style.color.display v.light)
      ((Curve.sample (Curve.controlPolygon start controls stop) Curve.screenSteps).map
        fun p => v.toScreen (p + offset))
  | .label .. => []

/-- Draws a shape, moved by an offset. -/
def drawShape (v : View α) (rasterizer : Rasterizer σ) (offset : Point α) (s : Shape α) (state : σ) :
    Drawn σ α :=
  let (filling, s) := v.fill offset s
  match s.geometry with
  | .label anchor text =>
    let (raster, s, state) := labelRaster rasterizer s state
    ⟨filling ++ [.label (v.toScreen (anchor + offset)) text raster (s.style.color.display v.light)],
      s, state⟩
  | g => ⟨filling ++ v.outline offset s.style g, s, state⟩

/-! ### Checked shapes -/

/-- The corners of a triangle on the screen, if they are there. -/
def corners? (v : View α) (offset : Point α) (vertices : List (Point α)) (t : Triangle) :
    Option (Point α × Point α × Point α) := do
  let a ← vertices[t.a]?
  let b ← vertices[t.b]?
  let c ← vertices[t.c]?
  return (v.toScreen (a + offset), v.toScreen (b + offset), v.toScreen (c + offset))

/-- The fill of a shape, if every vertex that its triangles name is there. -/
def fill? (v : View α) (offset : Point α) (s : Shape α) : Option (List (Primitive α) × Shape α) :=
  if s.style.filled && !v.wireframe then
    match s.triangles with
    | (some fan, s) => do
      let corners ← fan.mapM (v.corners? offset s.geometry.vertices)
      return ([.fill corners (s.style.color.display v.light)], s)
    | (none, s) => some ([], s)
  else some ([], s)

/-- `outline`, broken off at a circle or a curve of too many points. -/
def checkedOutline (v : View α) (offset : Point α) (style : Style) :
    Geometry α → Except Crash (List (Primitive α))
  | .circle center rim =>
    let center := v.toScreen (center + offset)
    let radius := (v.toScreen (rim + offset)).distance center
    if style.filled && !v.wireframe then .ok [.disc center radius (style.color.display v.light)]
    else (checkedCirclePoints center radius).map fun points =>
      [v.stroke style (style.color.display v.light) points]
  | .curve start controls stop =>
    (Curve.checkedSample (Curve.controlPolygon start controls stop) Curve.screenSteps).map
      fun points => v.drawPath style (style.color.display v.light)
        (points.map fun p => v.toScreen (p + offset))
  | g => .ok (v.outline offset style g)

/-- `drawShape`, broken off where the shape cannot be drawn. -/
def checkedDrawShape (v : View α) (rasterizer : Rasterizer σ) (offset : Point α) (s : Shape α)
    (state : σ) : Except Crash (Drawn σ α) :=
  match v.fill? offset s with
  | none => .error .outOfRange
  | some (filling, s) =>
    match s.geometry with
    | .label anchor text =>
      let (raster, s, state) := labelRaster rasterizer s state
      .ok ⟨filling ++
        [.label (v.toScreen (anchor + offset)) text raster (s.style.color.display v.light)], s, state⟩
    | g => (v.checkedOutline offset s.style g).map fun outline => ⟨filling ++ outline, s, state⟩

/-! ### The shape being made -/

/-- The colour of handles. -/
def handleColor (light : Bool) : Rgb := if light then ⟨0.5, 0.5, 0.5⟩ else ⟨0.855, 0.647, 0.125⟩

/-- The dashed control polygon of a curve, with a disc on each handle. -/
def drawHandles (v : View α) (controls : List (Point α)) : List (Primitive α) :=
  let color := handleColor v.light
  let points := controls.map v.toScreen
  .stroke points true Scalar.one color ::
    points.map fun center => .disc center (Scalar.ofNat 5 * v.viewport.interfaceScale) color

/-- What is drawn on top of a shape while it is made: the segment from the last vertex of a
polyline to the pointer, or the handles of a curve. -/
def constructionAids (v : View α) (style : Style) : Geometry α → List (Primitive α)
  | .polyline vertices =>
    match vertices.getLast? with
    | some last =>
      v.drawPath { style with backArrow := false } (style.color.display v.light)
        [v.toScreen last, v.toScreen v.pointer]
    | none => []
  | .curve start controls stop => v.drawHandles (Curve.controlPolygon start controls stop)
  | _ => []

/-- Draws the shape that is being made. A dropped polygon is drawn at the pointer. -/
def drawEditing (v : View α) (rasterizer : Rasterizer σ) (s : Shape α) (state : σ) : Drawn σ α :=
  if v.mode = .droppedPolygon then v.drawShape rasterizer v.pointer s state
  else
    let drawn := v.drawShape rasterizer Point.origin s state
    { drawn with primitives := drawn.primitives ++ v.constructionAids s.style s.geometry }

/-- `drawEditing`, broken off where the shape cannot be drawn. -/
def checkedDrawEditing (v : View α) (rasterizer : Rasterizer σ) (s : Shape α) (state : σ) :
    Except Crash (Drawn σ α) :=
  if v.mode = .droppedPolygon then v.checkedDrawShape rasterizer v.pointer s state
  else (v.checkedDrawShape rasterizer Point.origin s state).map fun drawn =>
    { drawn with primitives := drawn.primitives ++ v.constructionAids s.style s.geometry }

end View

/-! ### Scenes -/

/-- A display list, from back to front, with the shapes and the rasterizer as drawing left
them. -/
structure Scene (σ α : Type) where
  primitives : List (Primitive α)
  shapes : List (Shape α)
  editing : Option (Shape α)
  state : σ

namespace Scene

variable {σ α : Type} [Scalar α]

/-- Draws shapes in order. -/
def drawShapes (v : View α) (rasterizer : Rasterizer σ) :
    List (Shape α) → σ → List (Primitive α) × List (Shape α) × σ
  | [], state => ([], [], state)
  | s :: rest, state =>
    let drawn := v.drawShape rasterizer Point.origin s state
    let (primitives, shapes, state) := drawShapes v rasterizer rest drawn.state
    (drawn.primitives ++ primitives, drawn.shape :: shapes, state)

/-- The scene of the committed shapes and of the shape that is being made. -/
def build (v : View α) (rasterizer : Rasterizer σ) (shapes : List (Shape α))
    (editing : Option (Shape α)) (state : σ) : Scene σ α :=
  let (primitives, shapes, state) := drawShapes v rasterizer shapes state
  match editing with
  | none => ⟨primitives, shapes, none, state⟩
  | some s =>
    let drawn := v.drawEditing rasterizer s state
    ⟨primitives ++ drawn.primitives, shapes, some drawn.shape, drawn.state⟩

/-- Draws shapes in order, up to the first that cannot be drawn. -/
def checkedDrawShapes (v : View α) (rasterizer : Rasterizer σ) :
    List (Shape α) → σ → Except Crash (List (Primitive α) × List (Shape α) × σ)
  | [], state => .ok ([], [], state)
  | s :: rest, state =>
    match v.checkedDrawShape rasterizer Point.origin s state with
    | .error crash => .error crash
    | .ok drawn =>
      (checkedDrawShapes v rasterizer rest drawn.state).map fun (primitives, shapes, state) =>
        (drawn.primitives ++ primitives, drawn.shape :: shapes, state)

/-- `build`, broken off at the first shape that cannot be drawn. -/
def checkedBuild (v : View α) (rasterizer : Rasterizer σ) (shapes : List (Shape α))
    (editing : Option (Shape α)) (state : σ) : Except Crash (Scene σ α) :=
  match checkedDrawShapes v rasterizer shapes state with
  | .error crash => .error crash
  | .ok (primitives, shapes, state) =>
    match editing with
    | none => .ok ⟨primitives, shapes, none, state⟩
    | some s =>
      (v.checkedDrawEditing rasterizer s state).map fun drawn =>
        ⟨primitives ++ drawn.primitives, shapes, some drawn.shape, drawn.state⟩

end Scene

end Draftboard
