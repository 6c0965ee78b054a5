import Extrusion.Proofs.Builder.Step

/-!
# Observing a run

What an instruction does is seen in the error it reports and in the state and
the print that it leaves behind.  A builder never looks at the state before the
current one when it handles the next instruction, so two builders that differ in
nothing else cannot be told apart.
-/

namespace Extrusion

structure Observation (α : Type) where
  error : Option (BuildError α)
  state : MachineState α
  print : Print α

namespace Builder

variable {α : Type}

/-- Two builders differ in the state before the current one at most. -/
structure Agree (first second : Builder α) : Prop where
  settings : first.settings = second.settings
  skipUnknown : first.machine.skipUnknown = second.machine.skipUnknown
  current : first.machine.current = second.machine.current
  print : first.print = second.print

theorem Agree.refl (builder : Builder α) : Agree builder builder := ⟨rfl, rfl, rfl, rfl⟩

theorem Agree.trans {first second third : Builder α} (h : Agree first second)
    (h' : Agree second third) : Agree first third :=
  ⟨h.settings.trans h'.settings, h.skipUnknown.trans h'.skipUnknown, h.current.trans h'.current,
    h.print.trans h'.print⟩

theorem known_or_unsupported (instruction : Instruction α) :
    (∀ code, instruction.command ≠ .unsupported code) ∨
      ∃ code, instruction.command = .unsupported code := by
  by_cases h : ∃ code, instruction.command = .unsupported code
  · exact Or.inr h
  · exact Or.inl fun code hcode => h ⟨code, hcode⟩

variable [Scalar α]

def observe (builder : Builder α) (instruction : Instruction α) : Observation α :=
  ⟨(builder.handle instruction).2, (builder.handle instruction).1.machine.current,
    (builder.handle instruction).1.print⟩

def observations (builder : Builder α) :
    List (Instruction α) → List (Instruction α × Observation α)
  | [] => []
  | instruction :: rest =>
      (instruction, builder.observe instruction) ::
        (builder.handle instruction).1.observations rest

theorem observations_cons (builder : Builder α) (instruction : Instruction α)
    (rest : List (Instruction α)) :
    builder.observations (instruction :: rest) =
      (instruction, builder.observe instruction) ::
        (builder.handle instruction).1.observations rest := rfl

/-!
# Known and unknown commands
-/

def moved (builder : Builder α) (instruction : Instruction α) : Machine α :=
  ⟨builder.machine.skipUnknown, builder.machine.current, builder.stateAfter instruction⟩

theorem run_of_known {machine : Machine α} {instruction : Instruction α}
    (h : ∀ code, instruction.command ≠ .unsupported code) :
    machine.run instruction =
      .ok ⟨machine.skipUnknown, machine.current, machine.current.after instruction.command⟩ := by
  unfold Machine.run
  split
  · rename_i code hcommand
    exact absurd hcommand (h code)
  · rfl

theorem handle_of_known {builder : Builder α} {instruction : Instruction α}
    (h : ∀ code, instruction.command ≠ .unsupported code) :
    builder.handle instruction =
      match collect builder.settings (builder.moved instruction) builder.print
        instruction.command with
      | .error error =>
          (⟨builder.settings, builder.moved instruction, builder.print⟩, some error)
      | .ok print => (⟨builder.settings, builder.moved instruction, print⟩, none) := by
  rw [handle_eq, run_of_known h]
  rfl

theorem handle_of_unsupported (builder : Builder α) {instruction : Instruction α} {code : Code}
    (h : instruction.command = .unsupported code) :
    builder.handle instruction =
      (builder, if builder.machine.skipUnknown then none
        else some (.unknownCommand ⟨code, instruction.lineNumber⟩)) := by
  have hrun : builder.machine.run instruction =
      if builder.machine.skipUnknown then .ok builder.machine
      else .error ⟨code, instruction.lineNumber⟩ := by
    unfold Machine.run
    rw [h]
  rw [handle_eq, hrun, h]
  cases builder.machine.skipUnknown <;> rfl

theorem handle_of_idle {builder : Builder α} {instruction : Instruction α}
    (hknown : ∀ code, instruction.command ≠ .unsupported code)
    (hidle : ¬ IsDeposition builder.machine.current (builder.stateAfter instruction)
      instruction.command) :
    builder.handle instruction =
      (⟨builder.settings, builder.moved instruction, builder.print⟩, none) := by
  have hcollect : Deposition.ofCommand builder.settings.arcMaxError
      (builder.moved instruction).previous (builder.moved instruction).current
      instruction.command = .ok none := Deposition.ofCommand_eq_none_iff.mpr hidle
  rw [handle_of_known hknown, collect_eq, hcollect]

/-- The state follows every command, also one that fails. -/
theorem current_handle (builder : Builder α) (instruction : Instruction α) :
    (builder.handle instruction).1.machine.current = builder.stateAfter instruction := by
  rcases known_or_unsupported instruction with hknown | ⟨code, hcode⟩
  · rw [handle_of_known hknown]
    split <;> rfl
  · rw [handle_of_unsupported builder hcode, stateAfter, hcode]
    rfl

/-!
# Indistinguishable runs
-/

section

variable {first second : Builder α}

theorem Agree.handle (h : Agree first second) (instruction : Instruction α) :
    (first.handle instruction).2 = (second.handle instruction).2 ∧
      Agree (first.handle instruction).1 (second.handle instruction).1 := by
  rcases known_or_unsupported instruction with hknown | ⟨code, hcode⟩
  · have hmoved : first.moved instruction = second.moved instruction := by
      unfold moved stateAfter
      rw [h.skipUnknown, h.current]
    have hsame : first.handle instruction = second.handle instruction := by
      rw [handle_of_known hknown, handle_of_known hknown, hmoved, h.settings, h.print]
    rw [hsame]
    exact ⟨rfl, .refl _⟩
  · rw [handle_of_unsupported first hcode, handle_of_unsupported second hcode, h.skipUnknown]
    exact ⟨rfl, h⟩

theorem Agree.observe (h : Agree first second) (instruction : Instruction α) :
    first.observe instruction = second.observe instruction := by
  rcases h.handle instruction with ⟨herror, hnext⟩
  unfold Builder.observe
  rw [herror, hnext.current, hnext.print]

theorem Agree.observations (h : Agree first second) (instructions : List (Instruction α)) :
    first.observations instructions = second.observations instructions := by
  induction instructions generalizing first second with
  | nil => rfl
  | cons instruction rest ih =>
      rw [observations_cons, observations_cons, h.observe instruction, ih (h.handle instruction).2]

end

end Builder
end Extrusion
