import Extrusion.Deposition
import Extrusion.Proofs.Scalar.Order

/-!
# Depositing moves

The rule by which a move deposits, stated on its own: it ends at the height it
started from, the absolute extruder value grew, and it is an arc or a straight
move that names X or Y.  The depositions that the machine reports follow this
rule, and their heights are numbers.
-/

namespace Extrusion

open Scalar

variable {α : Type} [Scalar α]

/-- A move from one state to another deposits material. -/
def IsDeposition (before after : MachineState α) : Command α → Prop
  | .linear move =>
      (before.absolutePosition.z == after.absolutePosition.z) = true ∧
        before.absoluteExtruder < after.absoluteExtruder ∧ (move.x ≠ none ∨ move.y ≠ none)
  | .arc _ =>
      (before.absolutePosition.z == after.absolutePosition.z) = true ∧
        before.absoluteExtruder < after.absoluteExtruder
  | _ => False

inductive Deposits (maxError : α) (before after : MachineState α) :
    Command α → List (Vec2 α) → Prop where
  | straight (move : LinearMove α)
      (level : (before.absolutePosition.z == after.absolutePosition.z) = true)
      (fed : before.absoluteExtruder < after.absoluteExtruder)
      (named : move.x ≠ none ∨ move.y ≠ none) :
      Deposits maxError before after (.linear move)
        [before.absolutePosition.planar, after.absolutePosition.planar]
  | curved (move : ArcMove α) (corners : List (Vec2 α))
      (level : (before.absolutePosition.z == after.absolutePosition.z) = true)
      (fed : before.absoluteExtruder < after.absoluteExtruder)
      (polyline : Arc.polyline?
        { source := before.absolutePosition.planar
          destination := after.absolutePosition.planar
          pivot :=
            before.absolutePosition.planar + Vec2.scale ⟨move.i, move.j⟩ before.unitLength
          rotation := move.rotation } maxError = some corners) :
      Deposits maxError before after (.arc move) corners

theorem not_isDeposition_of_not_isMove {before after : MachineState α} {command : Command α}
    (h : command.isMove = false) : ¬ IsDeposition before after command := by
  intro hdeposition
  cases command with
  | linear move => cases h
  | arc move => cases h
  | _ => cases hdeposition

def Instruction.straight (lineNumber : Nat) (x z e : Option α) : Instruction α :=
  ⟨lineNumber, .linear ⟨false, x, none, z, e, none, none, none, none⟩⟩

namespace Deposition

def along (corners : List (Vec2 α)) (after : MachineState α) : Deposition α :=
  ⟨corners, after.absolutePosition.z, after.temperature, after.feedrate⟩

theorem extrudes_iff (before after : MachineState α) :
    extrudes before after = true ↔
      (before.absolutePosition.z == after.absolutePosition.z) = true ∧
        before.absoluteExtruder < after.absoluteExtruder := by
  unfold extrudes
  rw [Bool.and_eq_true, decide_eq_true_iff]

theorem deposits_iff_cornersOf (maxError : α) (before after : MachineState α)
    (command : Command α) (corners : List (Vec2 α)) :
    Deposits maxError before after command corners ↔
      cornersOf maxError before after command = .ok (some corners) := by
  constructor
  · intro h
    cases h with
    | straight move level fed named =>
        have hextrudes := (extrudes_iff before after).mpr ⟨level, fed⟩
        have hnamed : (move.x.isSome || move.y.isSome) = true := by
          simpa [Option.isSome_iff_ne_none] using named
        simp [cornersOf, hextrudes, hnamed]
    | curved move corners level fed polyline =>
        have hextrudes := (extrudes_iff before after).mpr ⟨level, fed⟩
        simp only [cornersOf, hextrudes, if_true, arcOf, polyline]
  · intro h
    cases command with
    | linear move =>
        by_cases hmove : ((move.x.isSome || move.y.isSome) && extrudes before after) = true
        · simp only [cornersOf, hmove, if_true] at h
          cases h
          rw [Bool.and_eq_true] at hmove
          rcases (extrudes_iff before after).mp hmove.2 with ⟨level, fed⟩
          refine .straight move level fed ?_
          simpa [Option.isSome_iff_ne_none] using hmove.1
        · simp [cornersOf, hmove] at h
    | arc move =>
        by_cases hextrudes : extrudes before after = true
        · rcases (extrudes_iff before after).mp hextrudes with ⟨level, fed⟩
          simp only [cornersOf, hextrudes, if_true] at h
          cases hpolyline : (arcOf before after move).polyline? maxError with
          | none =>
              rw [hpolyline] at h
              cases h
          | some found =>
              rw [hpolyline] at h
              cases h
              exact .curved move corners level fed hpolyline
        · simp [cornersOf, hextrudes] at h
    | _ => cases h

theorem ofCommand_eq_some_iff {maxError : α} {before after : MachineState α}
    {command : Command α} {deposition : Deposition α} :
    ofCommand maxError before after command = .ok (some deposition) ↔
      ∃ corners, Deposits maxError before after command corners ∧
        deposition = along corners after := by
  unfold ofCommand
  simp only [deposits_iff_cornersOf]
  cases cornersOf maxError before after command with
  | error error => simp [Except.map]
  | ok found =>
      cases found with
      | none => simp [Except.map]
      | some corners => simp [Except.map, along, eq_comm]

theorem ofCommand_eq_none_iff {maxError : α} {before after : MachineState α}
    {command : Command α} :
    ofCommand maxError before after command = .ok none ↔ ¬ IsDeposition before after command := by
  have hcorners : ofCommand maxError before after command = .ok none ↔
      cornersOf maxError before after command = .ok none := by
    unfold ofCommand
    cases cornersOf maxError before after command with
    | error error => simp [Except.map]
    | ok found => cases found <;> simp [Except.map]
  rw [hcorners]
  cases command with
  | linear move =>
      by_cases hextrudes : extrudes before after = true
      · have hmoves := (extrudes_iff before after).mp hextrudes
        cases hx : move.x <;> cases hy : move.y <;>
          simp [cornersOf, IsDeposition, hextrudes, hmoves, hx, hy]
      · have hstays := mt (extrudes_iff before after).mpr hextrudes
        simp only [cornersOf, IsDeposition, hextrudes, Bool.and_false, Bool.false_eq_true,
          if_false, true_iff]
        rintro ⟨level, fed, _⟩
        exact hstays ⟨level, fed⟩
  | arc move =>
      by_cases hextrudes : extrudes before after = true
      · have hmoves := (extrudes_iff before after).mp hextrudes
        cases hpolyline : (arcOf before after move).polyline? maxError <;>
          simp [cornersOf, IsDeposition, hextrudes, hmoves, hpolyline]
      · have hstays := mt (extrudes_iff before after).mpr hextrudes
        simp only [cornersOf, IsDeposition, hextrudes, Bool.false_eq_true, if_false, true_iff]
        exact hstays
  | _ => simp [cornersOf, IsDeposition]

theorem isMove_of_ofCommand {maxError : α} {before after : MachineState α} {command : Command α}
    (h : ofCommand maxError before after command ≠ .ok none) : command.isMove = true := by
  cases hmove : command.isMove with
  | true => rfl
  | false => exact absurd (ofCommand_eq_none_iff.mpr (not_isDeposition_of_not_isMove hmove)) h

theorem uncentred_of_ofCommand {maxError : α} {before after : MachineState α}
    {command : Command α} {error : BuildError α}
    (h : ofCommand maxError before after command = .error error) :
    ∃ arc, error = .uncentredArc arc := by
  have hcorners : cornersOf maxError before after command = .error error := by
    unfold ofCommand at h
    cases hfound : cornersOf maxError before after command with
    | error found =>
        rw [hfound] at h
        cases h
        rfl
    | ok found =>
        rw [hfound] at h
        cases h
  cases command with
  | linear move =>
      simp only [cornersOf] at hcorners
      split at hcorners <;> cases hcorners
  | arc move =>
      by_cases hextrudes : extrudes before after = true
      · simp only [cornersOf, hextrudes, if_true] at hcorners
        cases hpolyline : (arcOf before after move).polyline? maxError with
        | none =>
            rw [hpolyline] at hcorners
            cases hcorners
            exact ⟨_, rfl⟩
        | some corners =>
            rw [hpolyline] at hcorners
            cases hcorners
      · simp [cornersOf, hextrudes] at hcorners
  | _ => cases hcorners

theorem deposits_unique {maxError : α} {before after : MachineState α} {command : Command α}
    {corners others : List (Vec2 α)} (h : Deposits maxError before after command corners)
    (hothers : Deposits maxError before after command others) : corners = others := by
  rw [deposits_iff_cornersOf] at h hothers
  rw [h] at hothers
  cases hothers
  rfl

theorem isDeposition_of_deposits {maxError : α} {before after : MachineState α}
    {command : Command α} {corners : List (Vec2 α)}
    (h : Deposits maxError before after command corners) : IsDeposition before after command := by
  cases h with
  | straight move level fed named => exact ⟨level, fed, named⟩
  | curved move corners level fed polyline => exact ⟨level, fed⟩

theorem isNumber_of_deposits [LawfulOrder α] {maxError : α} {before after : MachineState α}
    {command : Command α} {corners : List (Vec2 α)}
    (h : Deposits maxError before after command corners) :
    IsNumber (along corners after).height := by
  cases h with
  | straight move level fed named => exact isNumber_right_of_beq level
  | curved move corners level fed polyline => exact isNumber_right_of_beq level

end Deposition
end Extrusion
