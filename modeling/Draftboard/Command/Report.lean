import Draftboard.Json
import Draftboard.Scene.Primitive

/-!
# Draftboard.Command.Report

Shapes and scenes as JSON. Derived values of a shape are no part of its report.
-/

namespace Draftboard.Report

def ofPoint (p : Point Float) : Json := .object [("x", .ofFloat p.x), ("y", .ofFloat p.y)]

def ofPoints (ps : List (Point Float)) : Json := .array (ps.map ofPoint)

/-! ### Shapes -/

/-- The name of a stroke weight in reports. -/
def thicknessName : Thickness → String
  | .ultraThin => "ultra_thin"
  | .veryThin => "very_thin"
  | .thin => "thin"
  | .thick => "thick"
  | .veryThick => "very_thick"
  | .ultraThick => "ultra_thick"

def ofColor (c : Color) : Json :=
  let (red, green, blue) := c.ink.rgb
  .object
    [("entry", .object
        [("name", .string c.ink.name),
          ("rgb", .array [.ofNat red, .ofNat green, .ofNat blue])]),
      ("tint", .ofFloat c.tint)]

def ofStyle (s : Style) : Json :=
  .object
    [("color", ofColor s.color), ("dashed", .bool s.dashed), ("front_arrow", .bool s.frontArrow),
      ("back_arrow", .bool s.backArrow), ("filled", .bool s.filled),
      ("thickness", .string (thicknessName s.thickness))]

def ofGeometry (g : Geometry Float) : Json :=
  .object (("kind", .string g.kind.name) :: match g with
    | .line start stop => [("origin", ofPoint start), ("end", ofPoint stop)]
    | .circle center rim => [("center", ofPoint center), ("rim", ofPoint rim)]
    | .polyline vertices => [("vertices", ofPoints vertices)]
    | .curve start controls stop =>
      [("origin", ofPoint start), ("end", ofPoint stop), ("controls", ofPoints controls)]
    | .label anchor text => [("anchor", ofPoint anchor), ("text", .string text)])

def ofShape (s : Shape Float) : Json :=
  .object [("geometry", ofGeometry s.geometry), ("style", ofStyle s.style)]

/-! ### Scenes -/

def ofRgb (c : Rgb) : Json := .array [.ofFloat32 c.red, .ofFloat32 c.green, .ofFloat32 c.blue]

def ofPrimitive : Primitive Float → Json
  | .stroke points dashed width color =>
    .object
      [("type", .string "stroke"), ("points", ofPoints points), ("dashed", .bool dashed),
        ("width", .ofFloat width), ("color", ofRgb color)]
  | .fill triangles color =>
    .object
      [("type", .string "fill"),
        ("triangles", .array (triangles.map fun (a, b, c) => ofPoints [a, b, c])),
        ("color", ofRgb color)]
  | .disc center radius color =>
    .object
      [("type", .string "disc"), ("center", ofPoint center), ("radius", .ofFloat radius),
        ("color", ofRgb color)]
  | .arrowhead tip left right color =>
    .object
      [("type", .string "arrowhead"), ("tip", ofPoint tip), ("left", ofPoint left),
        ("right", ofPoint right), ("color", ofRgb color)]
  | .label anchor text raster color =>
    .object
      [("type", .string "label"), ("anchor", ofPoint anchor), ("text", .string text),
        ("raster", .ofOption .ofNat raster), ("color", ofRgb color)]

def ofScene (primitives : List (Primitive Float)) : Json :=
  .object [("primitives", .array (primitives.map ofPrimitive))]

end Draftboard.Report
