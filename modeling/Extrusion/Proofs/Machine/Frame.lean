import Mathlib
import Extrusion.Proofs.Builder.Collection
import Extrusion.Proofs.Machine.Moves
import Extrusion.Proofs.Numeric.Micrometres

/-!
# Axes that a move does not name

In absolute positioning a move leaves the axes alone that it does not name.  In
relative positioning it rounds every axis to micrometres, so that an axis stays
where it is at a whole number of them.  Relative moves lead to such places, and
no sequence of moves takes an axis away from there without naming it.
-/

namespace Extrusion
namespace MachineState

open Scalar
open Numeric.Double (IsFinite IsWhole isFinite_nearest isWhole_toMicrometres nearest zero_sub)

/-- An axis is where it was, but for the sign of a zero. -/
def Stays (before after : Float) : Prop :=
  after = before ∨ before = -0 ∧ after = 0

theorem Stays.refl (x : Float) : Stays x x := Or.inl rfl

theorem Stays.trans {x y z : Float} (hxy : Stays x y) (hyz : Stays y z) : Stays x z := by
  rcases hxy with rfl | ⟨rfl, rfl⟩
  · exact hyz
  · rcases hyz with rfl | ⟨_, rfl⟩
    · exact Or.inr ⟨rfl, rfl⟩
    · exact Or.inr ⟨rfl, rfl⟩

theorem isWhole_zero : IsWhole 0 :=
  ⟨false, 0, Nat.zero_le _, by decide +kernel⟩

theorem Stays.isWhole {x y : Float} (h : Stays x y) (hx : IsWhole x) : IsWhole y := by
  rcases h with rfl | ⟨_, rfl⟩
  · exact hx
  · exact isWhole_zero

theorem isNumber_of_isWhole {x : Float} (h : IsWhole x) : IsNumber x := by
  rcases h with ⟨negative, k, hk, rfl⟩
  have hk' : (k : ℚ) ≤ 2 ^ 50 := by exact_mod_cast hk
  have hfinite : IsFinite (nearest negative k 1000) := by
    refine isFinite_nearest negative (k := 50) (by norm_num) (by norm_num) ?_
    push_cast
    linarith
  exact isNumber_float_iff.mpr (Nat.le_of_lt hfinite)

theorem Stays.beq_of_isWhole {x y : Float} (h : Stays x y) (hx : IsWhole x) :
    (y == x) = true := by
  rcases h with rfl | ⟨rfl, rfl⟩
  · exact isNumber_of_isWhole hx
  · decide +kernel

theorem Stays.sub_beq {x y : Float} (h : Stays x y) (offset : Float)
    (hnumber : IsNumber (x - offset)) : (x - offset == y - offset) = true := by
  rcases h with rfl | ⟨rfl, rfl⟩
  · exact hnumber
  · rcases zero_sub offset with heq | rfl | rfl
    · rw [heq]
      exact hnumber
    · decide +kernel
    · decide +kernel

section

variable {state : MachineState Float} {command : Command Float} {axis : Axis}

theorem reached_none_of_absolute (h : state.positioning = .absolute) (axis : Axis) :
    state.reached axis none = state.position.along axis := by
  unfold reached
  rw [h]

theorem reached_of_relative (h : state.positioning = .relative) (axis : Axis)
    (value : Option Float) :
    state.reached axis value = toMicrometres (state.displaced axis value) := by
  unfold reached
  rw [h]

theorem displaced_none (state : MachineState Float) (axis : Axis) :
    state.displaced axis none = state.position.along axis + 0 :=
  congrArg (state.position.along axis + ·) state.zero_mul_unitLength

theorem stays_reached_none (state : MachineState Float) (axis : Axis)
    (h : state.positioning = .absolute ∨ IsWhole (state.position.along axis)) :
    Stays (state.position.along axis) (state.reached axis none) := by
  cases hpositioning : state.positioning with
  | absolute =>
      rw [reached_none_of_absolute hpositioning]
      exact .refl _
  | relative =>
      rw [hpositioning] at h
      have hwhole := h.resolve_left (by simp)
      rw [reached_of_relative hpositioning, displaced_none]
      exact hwhole.toMicrometres_add_zero

theorem height_beq_after (hmove : command.isMove = true) (hz : command.named .z = none)
    (h : state.positioning = .absolute ∨ IsWhole state.position.z)
    (hnumber : IsNumber state.absolutePosition.z) :
    (state.absolutePosition.z == (state.after command).absolutePosition.z) = true := by
  have hstays := stays_reached_none state .z h
  rw [← hz, ← along_position_after state hmove] at hstays
  have hoffset := congrArg Point3.z (offset_after state hmove)
  show (state.position.z - state.offset.z ==
    (state.after command).position.z - (state.after command).offset.z) = true
  rw [hoffset]
  exact hstays.sub_beq _ hnumber

theorem isDeposition_iff_of_beq {before after : MachineState Float}
    (hmove : command.isMove = true)
    (hlevel : (before.absolutePosition.z == after.absolutePosition.z) = true) :
    IsDeposition before after command ↔
      before.absoluteExtruder < after.absoluteExtruder ∧
        (command.named .x ≠ none ∨ command.named .y ≠ none) := by
  cases command with
  | linear move => exact and_iff_right hlevel
  | arc move =>
      have hnamed : (Command.arc move).named .x ≠ none := by simp [Command.named]
      exact (and_iff_right hlevel).trans (and_iff_left (Or.inl hnamed)).symm
  | _ => cases hmove

structure FrameRule (state : MachineState Float) (command : Command Float) : Prop where
  offset : (state.after command).offset = state.offset
  absolute : state.positioning = .absolute → ∀ axis, command.named axis = none →
    (state.after command).position.along axis = state.position.along axis
  relative : state.positioning = .relative → ∀ axis, command.named axis = none →
    (state.after command).position.along axis = toMicrometres (state.position.along axis + 0)
  whole : ∀ axis, command.named axis = none → IsWhole (state.position.along axis) →
    ((state.after command).position.along axis == state.position.along axis) = true
  /-- A relative move leads to whole micrometres, unless it leads as far as 2 ^ 50 of
  them. -/
  lands : state.positioning = .relative → ∀ axis,
    -1125899906842624 < state.displaced axis (command.named axis) * 1000.0 →
    state.displaced axis (command.named axis) * 1000.0 < 1125899906842624 →
    IsWhole ((state.after command).position.along axis)
  level : command.named .z = none →
    state.positioning = .absolute ∨ IsWhole state.position.z →
    IsNumber state.absolutePosition.z →
      (state.absolutePosition.z == (state.after command).absolutePosition.z) = true ∧
      (IsDeposition state (state.after command) command ↔
        state.absoluteExtruder < (state.after command).absoluteExtruder ∧
          (command.named .x ≠ none ∨ command.named .y ≠ none))

theorem frameRule_of_isMove (state : MachineState Float) (command : Command Float)
    (hmove : command.isMove = true) : FrameRule state command where
  offset := offset_after state hmove
  absolute := by
    intro hpositioning axis hnamed
    rw [along_position_after state hmove, hnamed, reached_none_of_absolute hpositioning]
  relative := by
    intro hpositioning axis hnamed
    rw [along_position_after state hmove, hnamed, reached_of_relative hpositioning,
      displaced_none]
  whole := by
    intro axis hnamed hwhole
    have hstays := stays_reached_none state axis (Or.inr hwhole)
    rw [along_position_after state hmove, hnamed]
    exact hstays.beq_of_isWhole hwhole
  lands := by
    intro hpositioning axis hlow hhigh
    rw [along_position_after state hmove, reached_of_relative hpositioning]
    exact isWhole_toMicrometres hlow hhigh
  level := by
    intro hz h hnumber
    have hlevel := height_beq_after hmove hz h hnumber
    exact ⟨hlevel, isDeposition_iff_of_beq hmove hlevel⟩

/-!
## Runs
-/

def Spares (command : Command Float) (axis : Axis) : Prop :=
  command.named axis = none ∧ ∀ axes, command ≠ .home axes

theorem stays_after_of_spares (h : Spares command axis)
    (hwhole : IsWhole (state.position.along axis)) :
    Stays (state.position.along axis) ((state.after command).position.along axis) := by
  by_cases hmove : command.isMove = true
  · rw [along_position_after state hmove, h.1]
    exact stays_reached_none state axis (Or.inr hwhole)
  · have hposition : (state.after command).position = state.position := by
      cases command with
      | linear move => exact absurd rfl hmove
      | arc move => exact absurd rfl hmove
      | home axes => exact absurd rfl (h.2 axes)
      | _ => rfl
    rw [hposition]
    exact .refl _

/-- From a whole number of micrometres only the commands that name or home an axis
lead away. -/
theorem stays_afterAll {instructions : List (Instruction Float)}
    (h : ∀ instruction ∈ instructions, Spares instruction.command axis)
    (hwhole : IsWhole (state.position.along axis)) :
    Stays (state.position.along axis) ((state.afterAll instructions).position.along axis) := by
  induction instructions generalizing state with
  | nil => exact .refl _
  | cons instruction rest ih =>
      rcases List.forall_mem_cons.mp h with ⟨hhere, hrest⟩
      have hstep := stays_after_of_spares hhere hwhole
      exact hstep.trans (ih hrest (hstep.isWhole hwhole))

end

/-!
## A height between two micrometres
-/

def alongX : Command Float :=
  .linear ⟨false, some 1, none, none, some 1, none, none, none, none⟩

def relativeAt (z : Float) : MachineState Float :=
  (initial.after (.linear ⟨false, none, none, some z, none, none, none, none, none⟩)).after
    (.setPositioning .relative)

theorem isDeposition_at_whole_height :
    IsDeposition (relativeAt 0.2) ((relativeAt 0.2).after alongX) alongX := by
  have hwhole : IsWhole (relativeAt 0.2).position.z :=
    ⟨false, 200, by norm_num, by decide +kernel⟩
  have hnumber : ((relativeAt 0.2).absolutePosition.z == (relativeAt 0.2).absolutePosition.z) =
      true := by
    decide +kernel
  have hrule := frameRule_of_isMove (relativeAt 0.2) alongX rfl
  exact (hrule.level rfl (Or.inr hwhole) hnumber).2.mpr
    ⟨by decide +kernel, Or.inl (by simp [alongX, Command.named])⟩

theorem relative_move_changes_height :
    alongX.isMove = true ∧ alongX.named .z = none ∧
      (((relativeAt 0.1234).after alongX).position.z == (relativeAt 0.1234).position.z) = false ∧
      (relativeAt 0.1234).absoluteExtruder < ((relativeAt 0.1234).after alongX).absoluteExtruder ∧
      ¬ IsDeposition (relativeAt 0.1234) ((relativeAt 0.1234).after alongX) alongX := by
  refine ⟨rfl, rfl, by decide +kernel, by decide +kernel, ?_⟩
  rintro ⟨hlevel, _⟩
  exact absurd hlevel (by decide +kernel)

end MachineState
end Extrusion
