import Extrusion.Proofs.Deposition
import Extrusion.Proofs.Machine.Moves
import Extrusion.Proofs.Numeric.Arithmetic

/-!
# Millimetres and absolute extrusion

The unit and the extrusion mode only say how the values of commands are read.
Written out in millimetres and as absolute extruder values, the commands lead a
machine through the same states without ever changing either mode, and deposit
the same.
-/

namespace Extrusion

/-- Whether a command says how the lengths or the extruder values of later ones are
read. -/
def Command.setsReading {α : Type} : Command α → Bool
  | .setUnit _ => true
  | .setExtrusion _ => true
  | _ => false

namespace MachineState

variable {α : Type}

/-- The state in millimetres and absolute extrusion. -/
def plain (state : MachineState α) : MachineState α :=
  { state with unit := .millimetre, extrusion := .absolute }

variable [Scalar α]

def inMillimetres (state : MachineState α) (length : α) : α :=
  match state.unit with
  | .inch => length * 25.4
  | .millimetre => length

def fedTo (state : MachineState α) (e : α) : α :=
  match state.extrusion with
  | .relative => state.extruder + e
  | .absolute => e

def plainCommand (state : MachineState α) : Command α → Command α
  | .linear move =>
      .linear { move with
        x := move.x.map state.inMillimetres
        y := move.y.map state.inMillimetres
        z := move.z.map state.inMillimetres
        e := move.e.map state.fedTo }
  | .arc move =>
      .arc { move with
        x := state.inMillimetres move.x
        y := state.inMillimetres move.y
        i := state.inMillimetres move.i
        j := state.inMillimetres move.j
        e := state.fedTo move.e }
  | .setPosition shift =>
      .setPosition { shift with
        x := shift.x.map state.inMillimetres
        y := shift.y.map state.inMillimetres
        z := shift.z.map state.inMillimetres }
  | command => command

theorem setsReading_plainCommand (state : MachineState α) (command : Command α) :
    (state.plainCommand command).setsReading = command.setsReading := by
  cases command <;> rfl

/-!
# States
-/

section

variable (state : MachineState Float)

theorem inMillimetres_mul_unitLength (length : Float) :
    state.inMillimetres length * state.plain.unitLength = length * state.unitLength := by
  have hplain : state.plain.unitLength = 1 := rfl
  rw [hplain, Numeric.Double.mul_one]
  unfold inMillimetres unitLength
  cases state.unit with
  | inch => rfl
  | millimetre => exact (Numeric.Double.mul_one length).symm

theorem reached_plain (axis : Axis) (value : Option Float) :
    state.plain.reached axis (value.map state.inMillimetres) = state.reached axis value := by
  unfold reached displaced
  have hpositioning : state.plain.positioning = state.positioning := rfl
  have hposition : state.plain.position = state.position := rfl
  rw [hpositioning, hposition]
  cases value with
  | none =>
      simp only [Option.map_none, Option.getD_none, zero_mul_unitLength]
  | some v =>
      simp only [Option.map_some, Option.getD_some, inMillimetres_mul_unitLength]

theorem target_plain (x y z : Option Float) :
    state.plain.target (x.map state.inMillimetres) (y.map state.inMillimetres)
      (z.map state.inMillimetres) = state.target x y z := by
  rw [target_eq, target_eq, reached_plain, reached_plain, reached_plain]

theorem fed_plain (e : Option Float) : state.plain.fed (e.map state.fedTo) = state.fed e := by
  cases e with
  | none => rfl
  | some e =>
      unfold fed fedTo
      cases state.extrusion <;> rfl

theorem move_plain (x y z e f : Option Float) :
    state.plain.move (x.map state.inMillimetres) (y.map state.inMillimetres)
      (z.map state.inMillimetres) (e.map state.fedTo) f = (state.move x y z e f).plain := by
  unfold move
  rw [target_plain, fed_plain]
  rfl

theorem shifted_plain (shift : PositionShift Float) :
    state.plain.shifted { shift with
      x := shift.x.map state.inMillimetres
      y := shift.y.map state.inMillimetres
      z := shift.z.map state.inMillimetres } = (state.shifted shift).plain := by
  rcases shift with ⟨x, y, z, e⟩
  unfold shifted
  cases x <;> cases y <;> cases z <;>
    simp only [Option.map_none, Option.map_some, inMillimetres_mul_unitLength] <;> rfl

theorem after_plainCommand {command : Command Float} (h : command.setsReading = false) :
    state.plain.after (state.plainCommand command) = (state.after command).plain := by
  cases command with
  | linear move => exact state.move_plain _ _ _ _ _
  | arc move => exact state.move_plain (some move.x) (some move.y) none (some move.e) move.f
  | setPosition shift => exact state.shifted_plain shift
  | setUnit unit => cases h
  | setExtrusion reference => cases h
  | _ => rfl

theorem plain_after_of_setsReading {command : Command Float} (h : command.setsReading = true) :
    (state.after command).plain = state.plain := by
  cases command with
  | setUnit unit => rfl
  | setExtrusion reference => rfl
  | _ => cases h

end

end MachineState

/-!
# Depositions
-/

namespace Deposition

open MachineState

theorem arcOf_plain (before after : MachineState Float) (move : ArcMove Float) :
    arcOf before.plain after.plain { move with
      x := before.inMillimetres move.x
      y := before.inMillimetres move.y
      i := before.inMillimetres move.i
      j := before.inMillimetres move.j
      e := before.fedTo move.e } = arcOf before after move := by
  have hpivot : Vec2.scale ⟨before.inMillimetres move.i, before.inMillimetres move.j⟩
      before.plain.unitLength = Vec2.scale ⟨move.i, move.j⟩ before.unitLength := by
    unfold Vec2.scale
    rw [inMillimetres_mul_unitLength, inMillimetres_mul_unitLength]
  unfold arcOf
  rw [hpivot]
  rfl

theorem ofCommand_plain (maxError : Float) (before after : MachineState Float)
    (command : Command Float) :
    ofCommand maxError before.plain after.plain (before.plainCommand command) =
      ofCommand maxError before after command := by
  have hcorners : cornersOf maxError before.plain after.plain (before.plainCommand command) =
      cornersOf maxError before after command := by
    cases command with
    | linear move =>
        unfold cornersOf plainCommand
        simp only [Option.isSome_map]
        rfl
    | arc move =>
        have harc := arcOf_plain before after move
        unfold cornersOf plainCommand
        simp only [harc]
        rfl
    | _ => rfl
  unfold ofCommand
  rw [hcorners]
  rfl

end Deposition
end Extrusion
