import Extrusion.Builder
import Extrusion.Proofs.Deposition
import Extrusion.Proofs.Print.Step

/-!
# Handling an instruction

An instruction is unknown to the machine, or it moves the machine and then
deposits nothing, is refused, or adds one deposition to the print.  A builder
can be driven on past the instructions that fail; its print stays consistent
all the way.
-/

namespace Extrusion
namespace Builder

open Scalar

variable {α : Type} [Scalar α]

def stateAfter (builder : Builder α) (instruction : Instruction α) : MachineState α :=
  builder.machine.current.after instruction.command

def heightAfter (builder : Builder α) (instruction : Instruction α) : α :=
  (builder.stateAfter instruction).absolutePosition.z

def DepositsAlong (builder : Builder α) (instruction : Instruction α) (corners : List (Vec2 α)) :
    Prop :=
  Deposits builder.settings.arcMaxError builder.machine.current (builder.stateAfter instruction)
    instruction.command corners

/-- Runs instructions, passing over those that fail. -/
def replay (builder : Builder α) (instructions : List (Instruction α)) : Builder α :=
  instructions.foldl (fun builder instruction => (builder.handle instruction).1) builder

inductive Handled (builder : Builder α) (instruction : Instruction α) :
    Builder α × Option (BuildError α) → Prop where
  | unknown (error : UnknownCommand) (hrun : builder.machine.run instruction = .error error) :
      Handled builder instruction (builder, some (.unknownCommand error))
  | uncollected (machine : Machine α) (error : BuildError α)
      (hrun : builder.machine.run instruction = .ok machine)
      (hcollect : Deposition.ofCommand builder.settings.arcMaxError machine.previous
        machine.current instruction.command = .error error) :
      Handled builder instruction (⟨builder.settings, machine, builder.print⟩, some error)
  | idle (machine : Machine α) (hrun : builder.machine.run instruction = .ok machine)
      (hcollect : Deposition.ofCommand builder.settings.arcMaxError machine.previous
        machine.current instruction.command = .ok none) :
      Handled builder instruction (⟨builder.settings, machine, builder.print⟩, none)
  | refused (machine : Machine α) (deposition : Deposition α) (error : DescentError α)
      (hrun : builder.machine.run instruction = .ok machine)
      (hcollect : Deposition.ofCommand builder.settings.arcMaxError machine.previous
        machine.current instruction.command = .ok (some deposition))
      (hadd : builder.print.add deposition = .error error) :
      Handled builder instruction
        (⟨builder.settings, machine, builder.print⟩, some (.descent error))
  | deposited (machine : Machine α) (deposition : Deposition α) (print : Print α)
      (hrun : builder.machine.run instruction = .ok machine)
      (hcollect : Deposition.ofCommand builder.settings.arcMaxError machine.previous
        machine.current instruction.command = .ok (some deposition))
      (hadd : builder.print.add deposition = .ok print) :
      Handled builder instruction (⟨builder.settings, machine, print⟩, none)

theorem handle_eq (builder : Builder α) (instruction : Instruction α) :
    builder.handle instruction =
      match builder.machine.run instruction with
      | .error error => (builder, some (.unknownCommand error))
      | .ok machine =>
          match collect builder.settings machine builder.print instruction.command with
          | .error error => (⟨builder.settings, machine, builder.print⟩, some error)
          | .ok print => (⟨builder.settings, machine, print⟩, none) := by
  cases builder
  rfl

theorem collect_eq (settings : BuildSettings α) (machine : Machine α) (print : Print α)
    (command : Command α) :
    collect settings machine print command =
      match Deposition.ofCommand settings.arcMaxError machine.previous machine.current command with
      | .error error => .error error
      | .ok none => .ok print
      | .ok (some deposition) => (print.add deposition).mapError .descent := by
  unfold collect
  cases Deposition.ofCommand settings.arcMaxError machine.previous machine.current command with
  | error error => rfl
  | ok found => cases found <;> rfl

theorem handled (builder : Builder α) (instruction : Instruction α) :
    Handled builder instruction (builder.handle instruction) := by
  rw [handle_eq]
  cases hrun : builder.machine.run instruction with
  | error error => exact Handled.unknown error hrun
  | ok machine =>
      simp only [collect_eq]
      cases hcollect : Deposition.ofCommand builder.settings.arcMaxError machine.previous
          machine.current instruction.command with
      | error error => exact Handled.uncollected machine error hrun hcollect
      | ok found =>
          cases found with
          | none => exact Handled.idle machine hrun hcollect
          | some deposition =>
              cases hadd : builder.print.add deposition with
              | error error =>
                  simp only [hadd]
                  exact Handled.refused machine deposition error hrun hcollect hadd
              | ok next =>
                  simp only [hadd]
                  exact Handled.deposited machine deposition next hrun hcollect hadd

/-!
# Machines
-/

theorem current_of_run {machine moved : Machine α} {instruction : Instruction α}
    (h : machine.run instruction = .ok moved) :
    moved.current = machine.current.after instruction.command := by
  unfold Machine.run at h
  split at h
  · rename_i code hcommand
    rw [hcommand]
    split at h
    · cases h
      rfl
    · cases h
  · cases h
    rfl

theorem run_of_deposits {machine : Machine α} {instruction : Instruction α} {maxError : α}
    {after : MachineState α} {corners : List (Vec2 α)}
    (h : Deposits maxError machine.current after instruction.command corners) :
    machine.run instruction =
      .ok ⟨machine.skipUnknown, machine.current,
        machine.current.after instruction.command⟩ := by
  rcases instruction with ⟨lineNumber, command⟩
  cases h with
  | straight move level fed named => rfl
  | curved move corners level fed polyline => rfl

theorem previous_of_run {machine moved : Machine α} {instruction : Instruction α}
    (hrun : machine.run instruction = .ok moved)
    (hknown : ∀ code, instruction.command ≠ .unsupported code) :
    moved.previous = machine.current := by
  unfold Machine.run at hrun
  split at hrun
  · rename_i code hcommand
    exact absurd hcommand (hknown code)
  · cases hrun
    rfl

theorem previous_of_deposits {machine moved : Machine α} {instruction : Instruction α}
    {maxError : α} {after : MachineState α} {corners : List (Vec2 α)}
    (hrun : machine.run instruction = .ok moved)
    (h : Deposits maxError moved.previous after instruction.command corners) :
    moved.previous = machine.current := by
  refine previous_of_run hrun ?_
  rintro code hcommand
  rw [hcommand] at h
  cases h

theorem handle_of_deposits {builder : Builder α} {instruction : Instruction α}
    {corners : List (Vec2 α)} (h : builder.DepositsAlong instruction corners) :
    builder.handle instruction =
      match builder.print.add (.along corners (builder.stateAfter instruction)) with
      | .error error =>
          (⟨builder.settings, ⟨builder.machine.skipUnknown, builder.machine.current,
            builder.stateAfter instruction⟩, builder.print⟩, some (.descent error))
      | .ok print =>
          (⟨builder.settings, ⟨builder.machine.skipUnknown, builder.machine.current,
            builder.stateAfter instruction⟩, print⟩, none) := by
  have hcollect : Deposition.ofCommand builder.settings.arcMaxError builder.machine.current
      (builder.machine.current.after instruction.command) instruction.command =
        .ok (some (.along corners (builder.stateAfter instruction))) :=
    Deposition.ofCommand_eq_some_iff.mpr ⟨corners, h, rfl⟩
  rw [handle_eq, run_of_deposits h]
  simp only [collect_eq, hcollect]
  cases builder.print.add (.along corners (builder.stateAfter instruction)) <;> rfl

theorem handle_of_add_error {builder : Builder α} {instruction : Instruction α}
    {corners : List (Vec2 α)} {error : DescentError α}
    (h : builder.DepositsAlong instruction corners)
    (hadd : builder.print.add (.along corners (builder.stateAfter instruction)) = .error error) :
    (builder.handle instruction).2 = some (.descent error) := by
  rw [handle_of_deposits h, hadd]

theorem handle_of_add_ok {builder : Builder α} {instruction : Instruction α}
    {corners : List (Vec2 α)} {print : Print α}
    (h : builder.DepositsAlong instruction corners)
    (hadd : builder.print.add (.along corners (builder.stateAfter instruction)) = .ok print) :
    (builder.handle instruction).2 = none ∧ (builder.handle instruction).1.print = print := by
  rw [handle_of_deposits h, hadd]
  exact ⟨rfl, rfl⟩

theorem add_of_handle {builder : Builder α} {instruction : Instruction α}
    {corners : List (Vec2 α)} (h : builder.DepositsAlong instruction corners)
    (hok : (builder.handle instruction).2 = none) :
    builder.print.add (.along corners (builder.stateAfter instruction)) =
      .ok (builder.handle instruction).1.print := by
  cases hadd : builder.print.add (.along corners (builder.stateAfter instruction)) with
  | error error =>
      rw [handle_of_add_error h hadd] at hok
      cases hok
  | ok print => rw [(handle_of_add_ok h hadd).2]

theorem handle_accepted {builder : Builder α} {instruction : Instruction α}
    (hok : (builder.handle instruction).2 = none) :
    (builder.handle instruction).1.settings = builder.settings ∧
      (builder.handle instruction).1.machine.current = builder.stateAfter instruction ∧
      ((¬ IsDeposition builder.machine.current (builder.stateAfter instruction)
            instruction.command ∧
          (builder.handle instruction).1.print = builder.print) ∨
        ∃ corners, builder.DepositsAlong instruction corners ∧
          builder.print.add (.along corners (builder.stateAfter instruction)) =
            .ok (builder.handle instruction).1.print) := by
  have hhandled := handled builder instruction
  generalize builder.handle instruction = result at hhandled hok ⊢
  cases hhandled with
  | unknown error hrun => cases hok
  | uncollected machine error hrun hcollect => cases hok
  | refused machine deposition error hrun hcollect hadd => cases hok
  | idle machine hrun hcollect =>
      refine ⟨rfl, current_of_run hrun, Or.inl ⟨?_, rfl⟩⟩
      have hidle := Deposition.ofCommand_eq_none_iff.mp hcollect
      rw [current_of_run hrun] at hidle
      intro hdeposition
      have hknown : ∀ code, instruction.command ≠ .unsupported code := by
        rintro code hcommand
        rw [hcommand] at hdeposition
        cases hdeposition
      rw [previous_of_run hrun hknown] at hidle
      exact hidle hdeposition
  | deposited machine deposition print hrun hcollect hadd =>
      refine ⟨rfl, current_of_run hrun, Or.inr ?_⟩
      rcases Deposition.ofCommand_eq_some_iff.mp hcollect with ⟨corners, hdeposits, rfl⟩
      rw [previous_of_deposits hrun hdeposits, current_of_run hrun] at hdeposits
      rw [current_of_run hrun] at hadd
      exact ⟨corners, hdeposits, hadd⟩

theorem print_handle_of_failed {builder : Builder α} {instruction : Instruction α}
    (h : (builder.handle instruction).2 ≠ none) :
    (builder.handle instruction).1.print = builder.print := by
  have hhandled := handled builder instruction
  generalize builder.handle instruction = result at hhandled h ⊢
  cases hhandled with
  | unknown error hrun => rfl
  | uncollected machine error hrun hcollect => rfl
  | idle machine hrun hcollect => rfl
  | refused machine deposition error hrun hcollect hadd => rfl
  | deposited machine deposition print hrun hcollect hadd => exact absurd rfl h

theorem print_handle_of_not_deposits {builder : Builder α} {instruction : Instruction α}
    (h : ∀ corners, ¬ builder.DepositsAlong instruction corners) :
    (builder.handle instruction).1.print = builder.print := by
  by_cases hok : (builder.handle instruction).2 = none
  · rcases handle_accepted hok with ⟨_, _, ⟨_, hsame⟩ | ⟨corners, hdeposits, _⟩⟩
    · exact hsame
    · exact absurd hdeposits (h corners)
  · exact print_handle_of_failed hok

/-!
# Runs
-/

theorem replay_cons (builder : Builder α) (instruction : Instruction α)
    (rest : List (Instruction α)) :
    builder.replay (instruction :: rest) = (builder.handle instruction).1.replay rest := rfl

theorem replay_append (builder : Builder α) (front back : List (Instruction α)) :
    builder.replay (front ++ back) = (builder.replay front).replay back :=
  List.foldl_append

theorem handleAll_cons_eq_ok_iff {builder final : Builder α} {instruction : Instruction α}
    {rest : List (Instruction α)} :
    builder.handleAll (instruction :: rest) = .ok final ↔
      (builder.handle instruction).2 = none ∧
        (builder.handle instruction).1.handleAll rest = .ok final := by
  rw [handleAll]
  rcases builder.handle instruction with ⟨next, error⟩
  cases error <;> simp

theorem replay_of_handleAll {builder final : Builder α} {instructions : List (Instruction α)}
    (h : builder.handleAll instructions = .ok final) : builder.replay instructions = final := by
  induction instructions generalizing builder with
  | nil =>
      cases h
      rfl
  | cons instruction rest ih =>
      rw [replay_cons]
      exact ih (handleAll_cons_eq_ok_iff.mp h).2

/-- Handling an instruction leaves the print, or takes one step with it. -/
theorem print_handle [LawfulOrder α] {builder : Builder α} (h : builder.print.Consistent)
    (instruction : Instruction α) :
    (builder.handle instruction).1.print = builder.print ∨
      ∃ deposition : Deposition α, IsNumber deposition.height ∧
        deposition.height = builder.heightAfter instruction ∧
        Print.Step builder.print deposition (builder.handle instruction).1.print := by
  by_cases hok : (builder.handle instruction).2 = none
  · rcases handle_accepted hok with ⟨_, _, ⟨_, hsame⟩ | ⟨corners, hdeposits, hadd⟩⟩
    · exact Or.inl hsame
    · have hz := Deposition.isNumber_of_deposits hdeposits
      exact Or.inr ⟨_, hz, rfl, Print.step_of_add h hz hadd⟩
  · exact Or.inl (print_handle_of_failed hok)

theorem consistent_handle [LawfulOrder α] {builder : Builder α}
    (h : builder.print.Consistent) (instruction : Instruction α) :
    (builder.handle instruction).1.print.Consistent := by
  rcases print_handle h instruction with heq | ⟨deposition, hz, _, hstep⟩
  · rw [heq]
    exact h
  · exact h.step hz hstep

theorem consistent_replay [LawfulOrder α] {builder : Builder α}
    (h : builder.print.Consistent) (instructions : List (Instruction α)) :
    (builder.replay instructions).print.Consistent := by
  induction instructions generalizing builder with
  | nil => exact h
  | cons instruction rest ih => exact ih (consistent_handle h instruction)

theorem consistent_replay_new [LawfulOrder α] (settings : BuildSettings α)
    (instructions : List (Instruction α)) :
    ((Builder.new settings).replay instructions).print.Consistent :=
  consistent_replay Print.consistent_empty instructions

end Builder
end Extrusion
