import Draftboard.Number.Literal
import Draftboard.Picture.Statement
import Draftboard.Text.Quoted

/-!
# Draftboard.Command.Configuration

The scale and the rotation of a run, from the environment and from flags.

A scale is finite and positive and a rotation finite, wherever they come from. Flags take the
place of the environment's values, which have to be valid all the same.
-/

namespace Draftboard

open Picture (Placement)

/-- Where a setting comes from. -/
inductive SettingSource
  | scaleVariable
  | rotationVariable
  | scaleFlag
  | rotationFlag
deriving DecidableEq, Repr

/-- The name by which messages call a setting. -/
def SettingSource.name : SettingSource → String
  | scaleVariable => "TIKZGRID_SCALE"
  | rotationVariable => "TIKZGRID_ROTATION_DEG"
  | scaleFlag => "--scale"
  | rotationFlag => "--rotation"

/-- Why a setting is refused. -/
inductive ConfigurationError
  | notANumber (source : SettingSource) (value : String)
  /-- Infinite or no number at all, or a scale that is not positive. -/
  | outOfRange (source : SettingSource) (value : String)
deriving DecidableEq, Repr

def ConfigurationError.message : ConfigurationError → String
  | notANumber source value => source.name ++ " is not a number: " ++ value
  | outOfRange source value => source.name ++ " must be finite and positive: " ++ value

namespace Configuration

/-- A finite number, with blanks around it. -/
def readFinite (source : SettingSource) (text : String) : Except ConfigurationError Float :=
  match Literal.read? (Text.trim text.toList) with
  | none => .error (.notANumber source text)
  | some value => if value.isFinite then .ok value else .error (.outOfRange source text)

/-- A finite and positive number, with blanks around it. -/
def readScale (source : SettingSource) (text : String) : Except ConfigurationError Float :=
  match readFinite source text with
  | .ok value => if value ≤ 0 then .error (.outOfRange source text) else .ok value
  | .error e => .error e

/-- The setting of a text that may be missing. -/
def orDefault (default : Float) (reader : String → Except ConfigurationError Float) :
    Option String → Except ConfigurationError Float
  | some text => reader text
  | none => .ok default

/-- The placement of the environment's texts. The scale is looked at first. -/
def ofEnvironment (scale rotation : Option String) : Except ConfigurationError Placement :=
  match orDefault Placement.identity.scale (readScale .scaleVariable) scale with
  | .error e => .error e
  | .ok scale =>
    match orDefault Placement.identity.rotation (readFinite .rotationVariable) rotation with
    | .error e => .error e
    | .ok rotation => .ok ⟨scale, rotation⟩

/-- The placement with flags in the place of its values. -/
def override (p : Placement) (scale rotation : Option Float) : Placement :=
  ⟨scale.getD p.scale, rotation.getD p.rotation⟩

end Configuration

end Draftboard
