import Extrusion.Proofs.Arc.Translation
import Extrusion.Proofs.Machine.Writers

/-!
# States from another origin

The offsets say where the origin of the coordinate system lies.  Commands that set
neither of the offsets in the plane never read them, so they take a state with
another origin along.  What a move deposits is found from absolute positions, and in
exact arithmetic these are seen from that origin.
-/

namespace Extrusion

def Command.sparesPlane {α : Type} : Command α → Bool
  | .home axes => !(axes.covers .x || axes.covers .y)
  | .setPosition shift => !(shift.x.isSome || shift.y.isSome)
  | _ => true

section

variable {α : Type} [Scalar α]

/-- The state with the origin of its coordinate system moved in the plane. -/
def MachineState.seenFrom (origin : Vec2 α) (state : MachineState α) : MachineState α :=
  { state with
    offset := ⟨state.offset.x + origin.x, state.offset.y + origin.y, state.offset.z⟩ }

def BuildError.seenFrom (origin : Vec2 α) : BuildError α → BuildError α
  | .uncentredArc arc => .uncentredArc (arc.seenFrom origin)
  | error => error

def Deposition.seenFrom (origin : Vec2 α) (deposition : Deposition α) : Deposition α :=
  { deposition with corners := deposition.corners.map (Vec2.seenFrom origin) }

end

/-!
# States
-/

namespace MachineState

section

variable {α : Type} [Scalar α] (origin : Vec2 α) (state : MachineState α)

theorem homed_seenFrom {axes : HomeAxes} (hx : axes.covers .x = false)
    (hy : axes.covers .y = false) :
    (state.seenFrom origin).homed axes = (state.homed axes).seenFrom origin := by
  have hx' : (axes.isAll || axes.x) = false := hx
  have hy' : (axes.isAll || axes.y) = false := hy
  unfold homed seenFrom
  simp only [hx', hy', Bool.false_eq_true, if_false]

theorem shifted_seenFrom {shift : PositionShift α} (hx : shift.x = none) (hy : shift.y = none) :
    (state.seenFrom origin).shifted shift = (state.shifted shift).seenFrom origin := by
  unfold shifted seenFrom
  rw [hx, hy]
  rfl

theorem after_seenFrom {command : Command α} (h : command.sparesPlane = true) :
    (state.seenFrom origin).after command = (state.after command).seenFrom origin := by
  cases command with
  | home axes =>
      have hspares : axes.covers .x = false ∧ axes.covers .y = false := by
        simpa [Command.sparesPlane] using h
      exact state.homed_seenFrom origin hspares.1 hspares.2
  | setPosition shift =>
      have hspares : shift.x = none ∧ shift.y = none := by
        simpa [Command.sparesPlane] using h
      exact state.shifted_seenFrom origin hspares.1 hspares.2
  | _ => rfl

end

variable (origin : Vec2 ℝ) (state : MachineState ℝ)

theorem planar_seenFrom :
    (state.seenFrom origin).absolutePosition.planar =
      Vec2.seenFrom origin state.absolutePosition.planar := by
  show (⟨state.position.x - (state.offset.x + origin.x),
      state.position.y - (state.offset.y + origin.y)⟩ : Vec2 ℝ) =
    ⟨state.position.x - state.offset.x - origin.x, state.position.y - state.offset.y - origin.y⟩
  rw [sub_add_eq_sub_sub, sub_add_eq_sub_sub]

end MachineState

/-!
# Depositions
-/

namespace Deposition

variable (origin : Vec2 ℝ) (maxError : ℝ) (before after : MachineState ℝ)

theorem extrudes_seenFrom :
    extrudes (before.seenFrom origin) (after.seenFrom origin) = extrudes before after := rfl

/-- The pivot is an absolute point as well: it is reckoned from the source. -/
theorem arcOf_seenFrom (move : ArcMove ℝ) :
    arcOf (before.seenFrom origin) (after.seenFrom origin) move =
      (arcOf before after move).seenFrom origin := by
  unfold arcOf Arc.seenFrom
  simp only [MachineState.planar_seenFrom, Vec2.seenFrom_add]
  rfl

theorem cornersOf_seenFrom (command : Command ℝ) :
    cornersOf maxError (before.seenFrom origin) (after.seenFrom origin) command =
      ((cornersOf maxError before after command).map
        (Option.map (List.map (Vec2.seenFrom origin)))).mapError (BuildError.seenFrom origin) := by
  cases command with
  | linear move =>
      unfold cornersOf
      simp only [extrudes_seenFrom, MachineState.planar_seenFrom]
      split <;> rfl
  | arc move =>
      unfold cornersOf
      simp only [extrudes_seenFrom, arcOf_seenFrom, Arc.polyline?_seenFrom]
      split
      · cases (arcOf before after move).polyline? maxError <;> rfl
      · rfl
  | _ => rfl

theorem ofCommand_seenFrom (command : Command ℝ) :
    ofCommand maxError (before.seenFrom origin) (after.seenFrom origin) command =
      ((ofCommand maxError before after command).map
        (Option.map (Deposition.seenFrom origin))).mapError (BuildError.seenFrom origin) := by
  unfold ofCommand
  rw [cornersOf_seenFrom]
  rcases cornersOf maxError before after command with error | _ | corners
  · rfl
  · rfl
  · rfl

end Deposition
end Extrusion
