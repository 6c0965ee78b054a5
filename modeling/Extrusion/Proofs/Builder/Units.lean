import Extrusion.Proofs.Builder.Observation
import Extrusion.Proofs.Machine.Units

/-!
# Programs in millimetres and absolute extrusion

A program can be written out in millimetres and absolute extruder values, without
the commands that switch the unit or the extrusion mode.  It then takes a
builder through the same states, to the same errors and to the same print.
-/

namespace Extrusion

variable {α : Type}

def Observation.plain (seen : Observation α) : Observation α :=
  { seen with state := seen.state.plain }

def Machine.plain (machine : Machine α) : Machine α :=
  ⟨machine.skipUnknown, machine.previous.plain, machine.current.plain⟩

def Builder.plain (builder : Builder α) : Builder α :=
  { builder with machine := builder.machine.plain }

variable [Scalar α]

def MachineState.plainInstruction (state : MachineState α) (instruction : Instruction α) :
    Instruction α :=
  ⟨instruction.lineNumber, state.plainCommand instruction.command⟩

/-- A program, from a state on, as it is written in millimetres and absolute
extrusion. -/
def MachineState.plainProgram (state : MachineState α) :
    List (Instruction α) → List (Instruction α)
  | [] => []
  | instruction :: rest =>
      let later := plainProgram (state.after instruction.command) rest
      if instruction.command.setsReading then later
      else state.plainInstruction instruction :: later

namespace Builder

theorem collect_plain (settings : BuildSettings Float) (machine : Machine Float)
    (print : Print Float) (command : Command Float) :
    collect settings machine.plain print (machine.previous.plainCommand command) =
      collect settings machine print command := by
  have hdeposition : Deposition.ofCommand settings.arcMaxError machine.plain.previous
        machine.plain.current (machine.previous.plainCommand command) =
      Deposition.ofCommand settings.arcMaxError machine.previous machine.current command :=
    Deposition.ofCommand_plain _ _ _ _
  rw [collect_eq, collect_eq, hdeposition]

section

variable (builder : Builder Float) {instruction : Instruction Float}

theorem handle_plain (h : instruction.command.setsReading = false) :
    builder.plain.handle (builder.machine.current.plainInstruction instruction) =
      ((builder.handle instruction).1.plain, (builder.handle instruction).2) := by
  rcases known_or_unsupported instruction with hknown | ⟨code, hcode⟩
  · have hknown' : ∀ code,
        (builder.machine.current.plainInstruction instruction).command ≠ .unsupported code := by
      intro code hcode
      unfold MachineState.plainInstruction MachineState.plainCommand at hcode
      split at hcode
      · cases hcode
      · cases hcode
      · cases hcode
      · exact hknown code hcode
    have hmoved : builder.plain.moved (builder.machine.current.plainInstruction instruction) =
        (builder.moved instruction).plain :=
      congrArg (Machine.mk _ _) (MachineState.after_plainCommand _ h)
    have hcollect : collect builder.plain.settings (builder.moved instruction).plain
          builder.plain.print (builder.machine.current.plainInstruction instruction).command =
        collect builder.settings (builder.moved instruction) builder.print instruction.command :=
      collect_plain builder.settings (builder.moved instruction) builder.print _
    rw [handle_of_known hknown, handle_of_known hknown', hmoved, hcollect]
    cases collect builder.settings (builder.moved instruction) builder.print
        instruction.command <;> rfl
  · have hplain : (builder.machine.current.plainInstruction instruction).command =
        .unsupported code := by
      unfold MachineState.plainInstruction
      rw [hcode]
      rfl
    rw [handle_of_unsupported _ hcode, handle_of_unsupported _ hplain]
    rfl

theorem handle_of_setsReading (h : instruction.command.setsReading = true) :
    builder.handle instruction =
      (⟨builder.settings, builder.moved instruction, builder.print⟩, none) := by
  rcases instruction with ⟨lineNumber, command⟩
  cases command with
  | setUnit unit => exact handle_of_idle (by simp) (not_isDeposition_of_not_isMove rfl)
  | setExtrusion reference => exact handle_of_idle (by simp) (not_isDeposition_of_not_isMove rfl)
  | _ => cases h

theorem agree_plain_of_setsReading (h : instruction.command.setsReading = true) :
    Agree builder.plain (builder.handle instruction).1.plain := by
  rw [handle_of_setsReading builder h]
  exact ⟨rfl, rfl, (MachineState.plain_after_of_setsReading _ h).symm, rfl⟩

end

/-!
# Runs
-/

section

variable {plain builder : Builder Float}

theorem plainProgram_cons (builder : Builder Float) (instruction : Instruction Float)
    (rest : List (Instruction Float)) :
    builder.machine.current.plainProgram (instruction :: rest) =
      if instruction.command.setsReading then
        (builder.handle instruction).1.machine.current.plainProgram rest
      else
        builder.machine.current.plainInstruction instruction ::
          (builder.handle instruction).1.machine.current.plainProgram rest := by
  rw [current_handle]
  rfl

theorem Agree.plainInstruction (h : Agree plain builder.plain) {instruction : Instruction Float}
    (hreads : instruction.command.setsReading = false) :
    (plain.handle (builder.machine.current.plainInstruction instruction)).2 =
        (builder.handle instruction).2 ∧
      Agree (plain.handle (builder.machine.current.plainInstruction instruction)).1
        (builder.handle instruction).1.plain := by
  have hhandle := h.handle (builder.machine.current.plainInstruction instruction)
  rw [handle_plain builder hreads] at hhandle
  exact hhandle

theorem Agree.observations_plainProgram (h : Agree plain builder.plain)
    (instructions : List (Instruction Float)) :
    (plain.observations (builder.machine.current.plainProgram instructions)).map (·.2) =
      ((builder.observations instructions).filter fun seen =>
        !seen.1.command.setsReading).map fun seen => seen.2.plain := by
  induction instructions generalizing plain builder with
  | nil => rfl
  | cons instruction rest ih =>
      rw [plainProgram_cons, observations_cons]
      cases hreads : instruction.command.setsReading with
      | true =>
          rw [if_pos rfl, List.filter_cons_of_neg (by simp [hreads])]
          exact ih (h.trans (agree_plain_of_setsReading builder hreads))
      | false =>
          rcases h.plainInstruction hreads with ⟨herror, hnext⟩
          have hobserve : plain.observe (builder.machine.current.plainInstruction instruction) =
              (builder.observe instruction).plain := by
            unfold Builder.observe
            rw [herror, hnext.current, hnext.print]
            rfl
          rw [if_neg (by simp), List.filter_cons_of_pos (by simp [hreads]), observations_cons,
            List.map_cons, List.map_cons, hobserve]
          exact congrArg _ (ih hnext)

theorem Agree.replay_plainProgram (h : Agree plain builder.plain)
    (instructions : List (Instruction Float)) :
    Agree (plain.replay (builder.machine.current.plainProgram instructions))
      (builder.replay instructions).plain := by
  induction instructions generalizing plain builder with
  | nil => exact h
  | cons instruction rest ih =>
      rw [plainProgram_cons]
      cases hreads : instruction.command.setsReading with
      | true => exact ih (h.trans (agree_plain_of_setsReading builder hreads))
      | false => exact ih (h.plainInstruction hreads).2

theorem Agree.handleAll_plainProgram (h : Agree plain builder.plain)
    (instructions : List (Instruction Float)) :
    (plain.handleAll (builder.machine.current.plainProgram instructions)).map (·.print) =
      (builder.handleAll instructions).map (·.print) := by
  induction instructions generalizing plain builder with
  | nil => exact congrArg Except.ok h.print
  | cons instruction rest ih =>
      rw [plainProgram_cons]
      cases hreads : instruction.command.setsReading with
      | true =>
          have hnext := ih (h.trans (agree_plain_of_setsReading builder hreads))
          rw [if_pos rfl, hnext, handleAll, handle_of_setsReading builder hreads]
      | false =>
          rcases h.plainInstruction hreads with ⟨herror, hnext⟩
          have hlater := ih hnext
          rw [if_neg (by simp), handleAll, handleAll]
          generalize plain.handle (builder.machine.current.plainInstruction instruction) = first
            at herror hlater
          generalize builder.handle instruction = second at herror hlater
          rcases first with ⟨first, error⟩
          rcases second with ⟨second, error'⟩
          cases herror
          cases error with
          | none => exact hlater
          | some error => rfl

theorem setsReading_of_mem_plainProgram (state : MachineState Float)
    (instructions : List (Instruction Float)) :
    ∀ instruction ∈ state.plainProgram instructions,
      instruction.command.setsReading = false := by
  induction instructions generalizing state with
  | nil => simp [MachineState.plainProgram]
  | cons instruction rest ih =>
      unfold MachineState.plainProgram
      cases hreads : instruction.command.setsReading with
      | true =>
          rw [if_pos rfl]
          exact ih _
      | false =>
          rw [if_neg (by simp)]
          exact List.forall_mem_cons.mpr
            ⟨(state.setsReading_plainCommand instruction.command).trans hreads, ih _⟩

theorem error_of_setsReading (builder : Builder Float) (instructions : List (Instruction Float)) :
    ∀ seen ∈ builder.observations instructions, seen.1.command.setsReading = true →
      seen.2.error = none := by
  induction instructions generalizing builder with
  | nil => simp [Builder.observations]
  | cons instruction rest ih =>
      rw [observations_cons]
      refine List.forall_mem_cons.mpr ⟨?_, ih _⟩
      intro hreads
      unfold observe
      rw [handle_of_setsReading builder hreads]

end

/-- A run in millimetres and absolute extrusion beside the run it is written for. -/
structure PlainRun (builder : Builder Float) (instructions : List (Instruction Float)) : Prop where
  written : ∀ instruction ∈ builder.machine.current.plainProgram instructions,
    instruction.command.setsReading = false
  seen :
    (builder.plain.observations (builder.machine.current.plainProgram instructions)).map (·.2) =
      ((builder.observations instructions).filter fun seen =>
        !seen.1.command.setsReading).map fun seen => seen.2.plain
  dropped : ∀ seen ∈ builder.observations instructions, seen.1.command.setsReading = true →
    seen.2.error = none
  replayed : Agree (builder.plain.replay (builder.machine.current.plainProgram instructions))
    (builder.replay instructions).plain
  accepted :
    (builder.plain.handleAll (builder.machine.current.plainProgram instructions)).map (·.print) =
      (builder.handleAll instructions).map (·.print)

theorem plainRun (builder : Builder Float) (instructions : List (Instruction Float)) :
    PlainRun builder instructions where
  written := setsReading_of_mem_plainProgram _ instructions
  seen := (Agree.refl builder.plain).observations_plainProgram instructions
  dropped := error_of_setsReading builder instructions
  replayed := (Agree.refl builder.plain).replay_plainProgram instructions
  accepted := (Agree.refl builder.plain).handleAll_plainProgram instructions

end Builder
end Extrusion
