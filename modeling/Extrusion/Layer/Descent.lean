import Extrusion.Numeric.Layout
import Extrusion.Scalar

/-!
# Descents of the nozzle

Slicers often print a skirt or a purge line at some height and then lower the
nozzle for the real first layer.  One such descent is accepted, and only while
there is a single layer: the layer printed before it becomes the priming layer.
-/

namespace Extrusion

inductive DescentError (α : Type) where
  | late (height last : α) (layerCount : Nat)
  | afterPriming (height last : α)
  deriving DecidableEq, Repr

namespace DescentError

def message : DescentError Float → String
  | .late height last layerCount =>
      let low := Numeric.NumberStyle.plain.text height
      let high := Numeric.NumberStyle.plain.text last
      s!"Effector descended after printing {layerCount} layers (from {high}mm to {low}mm)."
  | .afterPriming height last =>
      let low := Numeric.NumberStyle.plain.text height
      let high := Numeric.NumberStyle.plain.text last
      s!"Effector descended after post priming descent (from {high}mm to {low}mm)."

end DescentError

inductive LayerSource (α : Type) where
  | existing
  | fresh
  /-- It is new, and the layer at another height is the priming layer. -/
  | demoting (primingHeight : α)
  deriving DecidableEq, Repr

structure Descent (α : Type) where
  lastHeight : α
  primed : Bool
  deriving DecidableEq, Repr

namespace Descent

variable {α : Type} [Scalar α]

def initial : Descent α := ⟨0, false⟩

def descend (descent : Descent α) (z : α) (layerCount : Nat) :
    Except (DescentError α) (LayerSource α × Bool) :=
  if descent.primed then .error (.afterPriming z descent.lastHeight)
  else if 1 < layerCount then .error (.late z descent.lastHeight layerCount)
  else if layerCount = 0 then .ok (.fresh, false)
  else .ok (.demoting descent.lastHeight, true)

/-- Where the layer at the height of a deposition comes from.  The height is
remembered unless it is refused. -/
def resolve (descent : Descent α) (z : α) (layerExists : Bool) (layerCount : Nat) :
    Except (DescentError α) (LayerSource α × Descent α) := do
  let (source, primed) ←
    if layerExists then pure (.existing, descent.primed)
    else if z < descent.lastHeight then descent.descend z layerCount
    else pure (.fresh, descent.primed)
  return (source, ⟨z, primed⟩)

end Descent

end Extrusion
