import Extrusion.Deposition
import Extrusion.Layer.Stack

/-!
# Prints

What has been printed so far: the layers by height, the priming layer once it
is known, and what the next descent is judged by.
-/

namespace Extrusion

structure Print (α : Type) where
  layers : LayerStack α
  priming : Option (α × Draft α)
  descent : Descent α

namespace Print

variable {α : Type} [Scalar α]

def empty : Print α := ⟨.empty, none, .initial⟩

def demote (print : Print α) (height : α) : Print α :=
  match print.layers.take? height with
  | some (draft, layers) => { print with layers, priming := some (height, draft) }
  | none => print

def add (print : Print α) (deposition : Deposition α) : Except (DescentError α) (Print α) := do
  let z := deposition.height
  let (source, descent) ←
    print.descent.resolve z (print.layers.contains z) print.layers.size
  let ready :=
    match source with
    | .demoting height => print.demote height
    | _ => print
  return {
    layers := ready.layers.update z fun draft =>
      draft.deposit deposition.corners deposition.temperature deposition.feedrate
    priming := ready.priming
    descent }

end Print

end Extrusion
