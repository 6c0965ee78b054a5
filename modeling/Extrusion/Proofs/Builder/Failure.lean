import Extrusion.Proofs.Builder.Changes
import Extrusion.Proofs.Builder.Collection
import Extrusion.Proofs.Builder.Observation

/-!
# Instructions that fail

An instruction that fails leaves no trace in the print.  An unknown command leaves
the machine alone too.  Where a move fails, the machine has made it, and it goes
on from there as if the nozzle had travelled without depositing anything.
-/

namespace Extrusion

open Scalar

variable {α : Type}

namespace MachineState

def turning (e : Option α) : Command α :=
  .linear ⟨false, none, none, none, e, none, none, none, none⟩

/-- The extruder turns in place, which is a matter of absolute positioning, and the
nozzle travels afterwards. -/
def turnAndTravel (state : MachineState α) (e x y z f : Option α) : List (Command α) :=
  [.setPositioning .absolute, turning e, .setPositioning state.positioning,
    .linear ⟨true, x, y, z, none, f, none, none, none⟩]

/-- Commands that lead to where a move leads, and deposit nothing. -/
def travel (state : MachineState α) : Command α → List (Command α)
  | .linear move => state.turnAndTravel move.e move.x move.y move.z move.f
  | .arc move => state.turnAndTravel (some move.e) (some move.x) (some move.y) none move.f
  | command => [command]

def travelOf (state : MachineState α) (instruction : Instruction α) : List (Instruction α) :=
  (state.travel instruction.command).map fun command => ⟨instruction.lineNumber, command⟩

theorem known_of_mem_travelOf {state : MachineState α} {instruction : Instruction α}
    (hmove : instruction.command.isMove = true) :
    ∀ travel ∈ state.travelOf instruction, ∀ code, travel.command ≠ .unsupported code := by
  rcases instruction with ⟨lineNumber, command⟩
  cases command with
  | linear move => simp [travelOf, travel, turnAndTravel, turning]
  | arc move => simp [travelOf, travel, turnAndTravel, turning]
  | _ => cases hmove

variable [Scalar α]

theorem afterAll_travelOf (state : MachineState α) {instruction : Instruction α}
    (hmove : instruction.command.isMove = true) :
    state.afterAll (state.travelOf instruction) = state.after instruction.command := by
  rcases instruction with ⟨lineNumber, command⟩
  cases command with
  | linear move => rfl
  | arc move => rfl
  | _ => cases hmove

theorem not_isDeposition_of_unfed [LawfulOrder α] (state : MachineState α)
    (rapid : Bool) (x y z f h r s : Option α) :
    ¬ IsDeposition state (state.after (.linear ⟨rapid, x, y, z, none, f, h, r, s⟩))
      (.linear ⟨rapid, x, y, z, none, f, h, r, s⟩) := by
  rintro ⟨_, hfed, _⟩
  exact lt_irrefl _ hfed

theorem not_isDeposition_turning (state : MachineState α) (e : Option α) :
    ¬ IsDeposition state (state.after (turning e)) (turning e) := by
  rintro ⟨_, _, hnamed⟩
  exact hnamed.elim (absurd rfl) (absurd rfl)

theorem runDeposits_travelOf [LawfulOrder α] (maxError : α) (state : MachineState α)
    {instruction : Instruction α} (hmove : instruction.command.isMove = true) :
    RunDeposits maxError state (state.travelOf instruction) [] := by
  rcases instruction with ⟨lineNumber, command⟩
  have hturn (e x y z f : Option α) : RunDeposits maxError state
      ((state.turnAndTravel e x y z f).map fun command => ⟨lineNumber, command⟩) [] := by
    refine .pass (not_isDeposition_of_not_isMove rfl) (.pass (not_isDeposition_turning _ e) ?_)
    refine .pass (not_isDeposition_of_not_isMove rfl) ?_
    exact .pass (not_isDeposition_of_unfed _ _ x y z f _ _ _) (.nil _)
  cases command with
  | linear move => exact hturn _ _ _ _ _
  | arc move => exact hturn _ _ _ _ _
  | _ => cases hmove

end MachineState

namespace Builder

variable [Scalar α]

theorem handleAll_of_idle {builder : Builder α} {instructions : List (Instruction α)}
    (hknown : ∀ instruction ∈ instructions, ∀ code, instruction.command ≠ .unsupported code)
    (hidle : RunDeposits builder.settings.arcMaxError builder.machine.current instructions []) :
    ∃ final, builder.handleAll instructions = .ok final ∧ final.settings = builder.settings ∧
      final.machine.skipUnknown = builder.machine.skipUnknown ∧ final.print = builder.print := by
  induction instructions generalizing builder with
  | nil => exact ⟨builder, rfl, rfl, rfl, rfl⟩
  | cons instruction rest ih =>
      rcases List.forall_mem_cons.mp hknown with ⟨hhere, hrest⟩
      cases hidle with
      | pass hpass hlater =>
          have hhandle := handle_of_idle hhere hpass
          have hidle : RunDeposits (builder.handle instruction).1.settings.arcMaxError
              (builder.handle instruction).1.machine.current rest [] := by
            rw [hhandle]
            exact hlater
          rcases ih hrest hidle with ⟨final, hfinal, hsettings, hskip, hprint⟩
          rw [hhandle] at hfinal hsettings hskip hprint
          refine ⟨final, ?_, hsettings, hskip, hprint⟩
          rw [handleAll, hhandle]
          exact hfinal

/-- What an instruction that fails leaves behind. -/
structure FailureRule (builder : Builder α) (instruction : Instruction α) : Prop where
  performed : ∀ error, (builder.handle instruction).2 = some error →
    (Changes.perform instruction).outcome builder = (.error error, (builder.handle instruction).1)
  print : (builder.handle instruction).2 ≠ none →
    (builder.handle instruction).1.settings = builder.settings ∧
    (builder.handle instruction).1.print = builder.print
  unknown : ∀ error, (builder.handle instruction).2 = some (.unknownCommand error) →
    (builder.handle instruction).1 = builder
  moved : ∀ error, (builder.handle instruction).2 = some error →
    (∀ unknown, error ≠ .unknownCommand unknown) →
      (builder.handle instruction).1.machine =
        ⟨builder.machine.skipUnknown, builder.machine.current, builder.stateAfter instruction⟩
  travelled : ∀ error, (builder.handle instruction).2 = some error →
    (∀ unknown, error ≠ .unknownCommand unknown) →
      RunDeposits builder.settings.arcMaxError builder.machine.current
        (builder.machine.current.travelOf instruction) [] ∧
      ∃ traveller,
        builder.handleAll (builder.machine.current.travelOf instruction) = .ok traveller ∧
        traveller.print = builder.print ∧
        traveller.machine.current = builder.stateAfter instruction ∧
        ∀ later, (builder.handle instruction).1.observations later = traveller.observations later

theorem moved_of_isMove {builder : Builder α} {instruction : Instruction α} {machine : Machine α}
    (hmove : instruction.command.isMove = true)
    (hrun : builder.machine.run instruction = .ok machine) :
    machine = builder.moved instruction := by
  have hknown : ∀ code, instruction.command ≠ .unsupported code := by
    intro code hcode
    rw [hcode] at hmove
    cases hmove
  rw [run_of_known hknown] at hrun
  cases hrun
  rfl

/-- A failure is an unknown command, or it befalls a move that the machine has made. -/
theorem failed_cases {builder : Builder α} {instruction : Instruction α} {error : BuildError α}
    (h : (builder.handle instruction).2 = some error) :
    (∃ unknown, error = .unknownCommand unknown) ∧ (builder.handle instruction).1 = builder ∨
      (∀ unknown, error ≠ .unknownCommand unknown) ∧ instruction.command.isMove = true ∧
        (builder.handle instruction).1 =
          ⟨builder.settings, builder.moved instruction, builder.print⟩ := by
  have hhandled := handled builder instruction
  generalize builder.handle instruction = result at hhandled h ⊢
  cases hhandled with
  | unknown unknown hrun =>
      cases h
      exact Or.inl ⟨⟨unknown, rfl⟩, rfl⟩
  | uncollected machine error' hrun hcollect =>
      cases h
      have hmove := Deposition.isMove_of_ofCommand (by rw [hcollect]; simp)
      rcases Deposition.uncentred_of_ofCommand hcollect with ⟨arc, rfl⟩
      rw [moved_of_isMove hmove hrun]
      exact Or.inr ⟨by simp, hmove, rfl⟩
  | idle machine hrun hcollect => cases h
  | refused machine deposition error' hrun hcollect hadd =>
      cases h
      have hmove := Deposition.isMove_of_ofCommand (by rw [hcollect]; simp)
      rw [moved_of_isMove hmove hrun]
      exact Or.inr ⟨by simp, hmove, rfl⟩
  | deposited machine deposition print hrun hcollect hadd => cases h

theorem failureRule [LawfulOrder α] (builder : Builder α) (instruction : Instruction α) :
    FailureRule builder instruction where
  performed := by
    intro error herror
    rw [Changes.outcome_perform, herror]
  print := by
    intro hfailed
    rcases Option.ne_none_iff_exists'.mp hfailed with ⟨error, herror⟩
    rcases failed_cases herror with ⟨_, hsame⟩ | ⟨_, _, hmoved⟩
    · rw [hsame]
      exact ⟨rfl, rfl⟩
    · rw [hmoved]
      exact ⟨rfl, rfl⟩
  unknown := by
    intro error herror
    rcases failed_cases herror with ⟨_, hsame⟩ | ⟨hknown, _⟩
    · exact hsame
    · exact absurd rfl (hknown error)
  moved := by
    intro error herror hknown
    rcases failed_cases herror with ⟨⟨unknown, hunknown⟩, _⟩ | ⟨_, _, hmoved⟩
    · exact absurd hunknown (hknown unknown)
    · rw [hmoved]
      rfl
  travelled := by
    intro error herror hknown
    rcases failed_cases herror with ⟨⟨unknown, hunknown⟩, _⟩ | ⟨_, hmove, hmoved⟩
    · exact absurd hunknown (hknown unknown)
    · have hidle := MachineState.runDeposits_travelOf builder.settings.arcMaxError
        builder.machine.current hmove
      rcases handleAll_of_idle (MachineState.known_of_mem_travelOf hmove) hidle with
        ⟨traveller, htraveller, hsettings, hskip, hprint⟩
      have hcurrent : traveller.machine.current = builder.stateAfter instruction := by
        rw [current_handleAll htraveller, MachineState.afterAll_travelOf _ hmove]
        rfl
      refine ⟨hidle, traveller, htraveller, hprint, hcurrent, ?_⟩
      have hagree : Agree (builder.handle instruction).1 traveller := by
        rw [hmoved]
        exact ⟨hsettings.symm, hskip.symm, hcurrent.symm, hprint.symm⟩
      exact hagree.observations

theorem failureRule_replay_new (settings : BuildSettings Float)
    (instructions : List (Instruction Float)) (instruction : Instruction Float) :
    FailureRule ((Builder.new settings).replay instructions) instruction :=
  failureRule _ instruction

/-- A third layer is refused below the first two. -/
example :
    (((Builder.new ⟨0.4, 0.05, true⟩).replay
      [.straight 1 none (some 2) none, .straight 2 (some 10) none (some 1),
        .straight 3 none (some 4) none, .straight 4 (some 0) none (some 2),
        .straight 5 none (some 1) none]).handle
      (.straight 6 (some 10) none (some 3))).2.isSome = true := by
  decide +kernel

end Builder
end Extrusion
