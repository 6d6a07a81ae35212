import Draftboard.Style

/-!
# Draftboard.Authoring.Settings

The style of the next shape and the switches of a session. A shape takes its style from the
settings when it is made; changing them later restyles nothing.
-/

namespace Draftboard

/-- A number of control points of a new curve, from one to six. -/
structure ControlCount where
  val : Nat
  one_le : 1 ≤ val
  le_six : val ≤ 6

namespace ControlCount

/-- The count in the range that is nearest to `n`. -/
def clamp (n : Nat) : ControlCount := ⟨max 1 (min n 6), by omega, by omega⟩

instance : Inhabited ControlCount := ⟨clamp 1⟩

def more (c : ControlCount) : ControlCount := clamp (c.val + 1)

def fewer (c : ControlCount) : ControlCount := clamp (c.val - 1)

/-- Clamping leaves a count of the range as it is. -/
theorem clamp_val (c : ControlCount) : (clamp c.val).val = c.val := by
  have := c.one_le; have := c.le_six; simp only [clamp]; omega

end ControlCount

/-- What a session draws with. -/
structure Settings where
  color : Color := default
  dashed : Bool := false
  frontArrow : Bool := false
  backArrow : Bool := false
  /-- Whether circles and closed polygons are filled. -/
  filled : Bool := false
  thickness : Thickness := default
  /-- Whether the pointer snaps to the grid. -/
  snap : Bool := true
  /-- Whether filled shapes are drawn as outlines. -/
  wireframe : Bool := false
  showGrid : Bool := true
  /-- Whether the background is light. -/
  light : Bool := true
  controlPoints : ControlCount := default
  /-- The text of the next label. -/
  label : String := "Insert Text"

namespace Settings

instance : Inhabited Settings := ⟨{}⟩

/-- The style of lines, curves and open polylines, which are never filled. -/
def strokeStyle (s : Settings) : Style where
  color := s.color
  dashed := s.dashed
  frontArrow := s.frontArrow
  backArrow := s.backArrow
  thickness := s.thickness

/-- The style of circles and closed polygons. -/
def fillStyle (s : Settings) : Style := { s.strokeStyle with filled := s.filled }

/-- The style of labels: a colour only. -/
def labelStyle (s : Settings) : Style := { color := s.color }

end Settings

end Draftboard
