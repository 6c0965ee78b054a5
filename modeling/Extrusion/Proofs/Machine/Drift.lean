import Extrusion.Proofs.Machine.Unknown
import Extrusion.Proofs.Machine.Writers
import Extrusion.Proofs.Scalar.Rounding

/-!
# The drift of relative moves

Relative moves are rounded to micrometres one by one.  In exact arithmetic each of
them adds half a micrometre at most to the distance between a raw coordinate and the
sum of what was commanded, and adds nothing where a whole number of micrometres was
commanded.  The errors of moves may all have the same sign.
-/

namespace Extrusion

open Scalar

section

variable {α : Type} {instruction : Instruction α} {rest : List (Instruction α)}

end

namespace MachineState

variable {α : Type} [Scalar α]

section

variable {state : MachineState α} {instruction : Instruction α} {rest : List (Instruction α)}

end

/-!
# One command
-/

section

variable {state : MachineState α} {command : Command α}

end

/-!
# Runs
-/

section

variable {state final : MachineState ℝ} {instruction : Instruction ℝ}
  {rest : List (Instruction ℝ)} {axis : Axis}

end

end MachineState

/-!
# Runs of a machine
-/

namespace Machine

variable {α : Type} [Scalar α]

end Machine
end Extrusion
