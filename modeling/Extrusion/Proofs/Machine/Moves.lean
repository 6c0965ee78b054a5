import Extrusion.Machine

/-!
# Moves, axis by axis

A move gives values to some axes.  Where each axis ends depends on its own raw
coordinate, on the value that the move gives to it, and on the positioning and
the unit in force.
-/

namespace Extrusion

inductive Axis where
  | x
  | y
  | z
  deriving DecidableEq, Repr

def Point3.along {α : Type} (a : Point3 α) : Axis → α
  | .x => a.x
  | .y => a.y
  | .z => a.z

def Command.named {α : Type} : Command α → Axis → Option α
  | .linear move, .x => move.x
  | .linear move, .y => move.y
  | .linear move, .z => move.z
  | .arc move, .x => some move.x
  | .arc move, .y => some move.y
  | _, _ => none

namespace MachineState

variable {α : Type} [Scalar α]

/-- The raw coordinate of an axis with a value added to it that is given in the
unit in force. -/
def displaced (state : MachineState α) (axis : Axis) (value : Option α) : α :=
  state.position.along axis + value.getD 0 * state.unitLength

def reached (state : MachineState α) (axis : Axis) (value : Option α) : α :=
  match state.positioning with
  | .relative => Scalar.toMicrometres (state.displaced axis value)
  | .absolute =>
      match value with
      | some v => v * state.unitLength
      | none => state.position.along axis

theorem target_eq (state : MachineState α) (x y z : Option α) :
    state.target x y z = ⟨state.reached .x x, state.reached .y y, state.reached .z z⟩ := by
  unfold target reached
  cases state.positioning with
  | relative => rfl
  | absolute => cases x <;> cases y <;> cases z <;> rfl

variable {command : Command α}

theorem along_position_after (state : MachineState α) (h : command.isMove = true) (axis : Axis) :
    (state.after command).position.along axis = state.reached axis (command.named axis) := by
  cases command with
  | linear move =>
      show (state.target move.x move.y move.z).along axis = _
      rw [target_eq]
      cases axis <;> rfl
  | arc move =>
      show (state.target (some move.x) (some move.y) none).along axis = _
      rw [target_eq]
      cases axis <;> rfl
  | _ => cases h

theorem offset_after (state : MachineState α) (h : command.isMove = true) :
    (state.after command).offset = state.offset := by
  cases command with
  | linear move => rfl
  | arc move => rfl
  | _ => cases h

theorem zero_mul_unitLength (state : MachineState Float) : 0 * state.unitLength = 0 := by
  unfold unitLength
  cases state.unit <;> decide +kernel

end MachineState
end Extrusion
