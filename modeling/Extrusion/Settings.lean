import Extrusion.Numeric.Layout
import Extrusion.Scalar

/-!
# Build settings

The settings that shape a model, and which of them a build can work with.
-/

namespace Extrusion

structure BuildSettings (α : Type) where
  /-- In millimetres.  Half of it pads every end of a path. -/
  nozzleDiameter : α
  /-- How far the chords of an arc may be from it, in millimetres. -/
  arcMaxError : α
  skipUnknown : Bool
  deriving BEq, DecidableEq, Repr

inductive SettingName where
  | nozzleDiameter
  | arcMaxError
  deriving DecidableEq, Repr

def SettingName.text : SettingName → String
  | .nozzleDiameter => "nozzle_diameter"
  | .arcMaxError => "arc_max_error"

inductive SettingsError (α : Type) where
  | nonPositive (name : SettingName) (value : α)
  | belowMinimum (name : SettingName) (value minimum : α)
  deriving DecidableEq, Repr

namespace SettingsError

def message : SettingsError Float → String
  | .nonPositive name value =>
      let got := Numeric.NumberStyle.plain.text value
      s!"{name.text} must be a positive number (got {got})"
  | .belowMinimum name value minimum =>
      let got := Numeric.NumberStyle.plain.text value
      let least := Numeric.NumberStyle.plain.text minimum
      s!"{name.text} must be at least {least} (got {got})"

end SettingsError

namespace BuildSettings

variable {α : Type} [Scalar α]

protected def default : BuildSettings α where
  nozzleDiameter := 0.4
  arcMaxError := 0.05
  skipUnknown := true

/-- The smallest accepted error of an arc, in millimetres. -/
def minArcError : α := 1e-6

def checkPositive (name : SettingName) (value : α) : Except (SettingsError α) Unit :=
  if 0 < value then .ok () else .error (.nonPositive name value)

def validate (settings : BuildSettings α) : Except (SettingsError α) Unit := do
  checkPositive .nozzleDiameter settings.nozzleDiameter
  checkPositive .arcMaxError settings.arcMaxError
  if settings.arcMaxError < minArcError then
    throw (.belowMinimum .arcMaxError settings.arcMaxError minArcError)

end BuildSettings

end Extrusion
