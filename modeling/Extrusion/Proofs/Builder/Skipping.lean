import Mathlib
import Extrusion.Model
import Extrusion.Proofs.Builder.Observation
import Extrusion.Proofs.Machine.Unknown

/-!
# Lenient and strict builders

To a lenient builder a program is what it is without its unknown commands.  A
strict one stops at the first of them, unless it has failed before, and is
otherwise no different.
-/

namespace Extrusion

variable {α : Type}

def knownInstructions (instructions : List (Instruction α)) : List (Instruction α) :=
  instructions.filter fun instruction => instruction.unknown?.isNone

def BuildSettings.skipping (settings : BuildSettings α) (skipUnknown : Bool) : BuildSettings α :=
  { settings with skipUnknown }

def Builder.skipping (builder : Builder α) (skipUnknown : Bool) : Builder α :=
  ⟨builder.settings.skipping skipUnknown, { builder.machine with skipUnknown }, builder.print⟩

section

variable {instruction : Instruction α} {instructions : List (Instruction α)}

theorem known_of_unknown_none (h : instruction.unknown? = none) :
    ∀ code, instruction.command ≠ .unsupported code :=
  Command.unknownCode_eq_none_iff.mp (Instruction.unknown_eq_none_iff.mp h)

theorem knownInstructions_cons_of_known (h : instruction.unknown? = none) :
    knownInstructions (instruction :: instructions) =
      instruction :: knownInstructions instructions :=
  List.filter_cons_of_pos (by rw [h]; rfl)

theorem knownInstructions_cons_of_unknown {error : UnknownCommand}
    (h : instruction.unknown? = some error) :
    knownInstructions (instruction :: instructions) = knownInstructions instructions :=
  List.filter_cons_of_neg (by rw [h]; exact Bool.false_ne_true)

end

namespace Builder

variable [Scalar α]

section

variable {builder : Builder α} {instruction : Instruction α}
  {instructions : List (Instruction α)} {skipUnknown : Bool} {error : UnknownCommand}

/-!
## One instruction
-/

theorem handle_of_unknown (h : instruction.unknown? = some error) (builder : Builder α) :
    builder.handle instruction =
      (builder, if builder.machine.skipUnknown then none else some (.unknownCommand error)) := by
  unfold Instruction.unknown? at h
  obtain ⟨code, hcode, rfl⟩ := Option.map_eq_some_iff.mp h
  cases hcommand : instruction.command with
  | unsupported code' =>
      rw [hcommand] at hcode
      cases hcode
      exact handle_of_unsupported builder hcommand
  | _ =>
      rw [hcommand] at hcode
      cases hcode

theorem skipUnknown_handle (builder : Builder α) (instruction : Instruction α) :
    (builder.handle instruction).1.machine.skipUnknown = builder.machine.skipUnknown := by
  cases h : instruction.unknown? with
  | some error => rw [handle_of_unknown h]
  | none =>
      rw [handle_of_known (known_of_unknown_none h)]
      split <;> rfl

theorem handle_skipping (h : instruction.unknown? = none) (builder : Builder α)
    (skipUnknown : Bool) :
    (builder.skipping skipUnknown).handle instruction =
      ((builder.handle instruction).1.skipping skipUnknown, (builder.handle instruction).2) := by
  have hknown := known_of_unknown_none h
  have hcollect : collect (builder.skipping skipUnknown).settings
        ((builder.skipping skipUnknown).moved instruction) (builder.skipping skipUnknown).print
        instruction.command =
      collect builder.settings (builder.moved instruction) builder.print instruction.command := rfl
  rw [handle_of_known hknown, handle_of_known hknown, hcollect]
  cases collect builder.settings (builder.moved instruction) builder.print
    instruction.command <;> rfl

theorem unknown_of_handle (h : (builder.handle instruction).2 = some (.unknownCommand error)) :
    builder.machine.skipUnknown = false ∧ instruction.unknown? = some error := by
  cases hunknown : instruction.unknown? with
  | some error' =>
      rw [handle_of_unknown hunknown] at h
      cases hskip : builder.machine.skipUnknown with
      | true =>
          rw [hskip] at h
          cases h
      | false =>
          rw [hskip] at h
          cases h
          exact ⟨rfl, rfl⟩
  | none =>
      have hrun' : builder.machine.run instruction = .ok _ :=
        run_of_known (known_of_unknown_none hunknown)
      have hhandled := handled builder instruction
      generalize builder.handle instruction = result at hhandled h
      cases hhandled with
      | unknown error' hrun =>
          rw [hrun] at hrun'
          cases hrun'
      | uncollected machine error' hrun hcollect =>
          rcases Deposition.uncentred_of_ofCommand hcollect with ⟨arc, rfl⟩
          cases h
      | idle machine hrun hcollect => cases h
      | refused machine deposition error' hrun hcollect hadd => cases h
      | deposited machine deposition print hrun hcollect hadd => cases h

/-!
## Runs
-/

theorem handleAll_cons_of_ok (h : (builder.handle instruction).2 = none) :
    builder.handleAll (instruction :: instructions) =
      (builder.handle instruction).1.handleAll instructions := by
  rw [handleAll]
  rcases hhandle : builder.handle instruction with ⟨next, found⟩
  rw [hhandle] at h
  cases h
  rfl

theorem handleAll_cons_of_error {error : BuildError α}
    (h : (builder.handle instruction).2 = some error) :
    builder.handleAll (instruction :: instructions) = .error error := by
  rw [handleAll]
  rcases hhandle : builder.handle instruction with ⟨next, found⟩
  rw [hhandle] at h
  cases h
  rfl

theorem handleAll_append (builder : Builder α) (front back : List (Instruction α)) :
    builder.handleAll (front ++ back) =
      match builder.handleAll front with
      | .error error => .error error
      | .ok next => next.handleAll back := by
  induction front generalizing builder with
  | nil => rfl
  | cons instruction front ih =>
      rw [List.cons_append]
      cases h : (builder.handle instruction).2 with
      | some error => rw [handleAll_cons_of_error h, handleAll_cons_of_error h]
      | none => rw [handleAll_cons_of_ok h, handleAll_cons_of_ok h, ih]

theorem skipUnknown_handleAll {final : Builder α} (h : builder.handleAll instructions = .ok final) :
    final.machine.skipUnknown = builder.machine.skipUnknown := by
  induction instructions generalizing builder with
  | nil =>
      cases h
      rfl
  | cons instruction rest ih =>
      rw [ih (handleAll_cons_eq_ok_iff.mp h).2, skipUnknown_handle]

theorem handleAll_of_lenient (hlenient : builder.machine.skipUnknown = true) :
    builder.handleAll instructions = builder.handleAll (knownInstructions instructions) := by
  induction instructions generalizing builder with
  | nil => rfl
  | cons instruction rest ih =>
      cases hunknown : instruction.unknown? with
      | some error =>
          have hpassed := handle_of_unknown hunknown builder
          rw [hlenient] at hpassed
          rw [knownInstructions_cons_of_unknown hunknown,
            handleAll_cons_of_ok (congrArg Prod.snd hpassed), hpassed]
          exact ih hlenient
      | none =>
          rw [knownInstructions_cons_of_known hunknown]
          cases h : (builder.handle instruction).2 with
          | some error => rw [handleAll_cons_of_error h, handleAll_cons_of_error h]
          | none =>
              rw [handleAll_cons_of_ok h, handleAll_cons_of_ok h]
              exact ih ((skipUnknown_handle builder instruction).trans hlenient)

/-- Where errors are passed over, what is not known changes nothing in any builder. -/
theorem replay_knownInstructions (builder : Builder α) (instructions : List (Instruction α)) :
    builder.replay instructions = builder.replay (knownInstructions instructions) := by
  induction instructions generalizing builder with
  | nil => rfl
  | cons instruction rest ih =>
      cases hunknown : instruction.unknown? with
      | some error =>
          rw [knownInstructions_cons_of_unknown hunknown, replay_cons,
            handle_of_unknown hunknown]
          exact ih builder
      | none =>
          rw [knownInstructions_cons_of_known hunknown, replay_cons, replay_cons]
          exact ih (builder.handle instruction).1

theorem handleAll_skipping (h : firstUnknown? instructions = none) (builder : Builder α)
    (skipUnknown : Bool) :
    (builder.skipping skipUnknown).handleAll instructions =
      (builder.handleAll instructions).map (skipping · skipUnknown) := by
  induction instructions generalizing builder with
  | nil => rfl
  | cons instruction rest ih =>
      rw [firstUnknown_eq_none_iff, List.forall_mem_cons, ← firstUnknown_eq_none_iff] at h
      have hhandle := handle_skipping h.1 builder skipUnknown
      cases hfound : (builder.handle instruction).2 with
      | some error =>
          rw [hfound] at hhandle
          rw [handleAll_cons_of_error hfound, handleAll_cons_of_error (congrArg Prod.snd hhandle)]
          rfl
      | none =>
          rw [hfound] at hhandle
          rw [handleAll_cons_of_ok hfound, handleAll_cons_of_ok (congrArg Prod.snd hhandle),
            hhandle]
          exact ih h.2 (builder.handle instruction).1

theorem handleAll_of_strict (hstrict : builder.machine.skipUnknown = false)
    (hunknown : instruction.unknown? = some error) (front back : List (Instruction α)) :
    builder.handleAll (front ++ instruction :: back) =
      match builder.handleAll front with
      | .error first => .error first
      | .ok _ => .error (.unknownCommand error) := by
  rw [handleAll_append]
  cases hfront : builder.handleAll front with
  | error first => rfl
  | ok next =>
      have hrefused := handle_of_unknown hunknown next
      rw [skipUnknown_handleAll hfront, hstrict] at hrefused
      exact handleAll_cons_of_error (congrArg Prod.snd hrefused)

end

/-!
## Models
-/

def modelOf (settings : BuildSettings α) (instructions : List (Instruction α)) :
    Except (BuildError α) (Model α) :=
  ((Builder.new settings).handleAll instructions).map toModel

section

variable (settings : BuildSettings α) {instructions : List (Instruction α)}

theorem modelOf_lenient :
    modelOf (settings.skipping true) instructions =
      modelOf (settings.skipping true) (knownInstructions instructions) :=
  congrArg (Except.map toModel) (handleAll_of_lenient rfl)

theorem modelOf_of_known (h : firstUnknown? instructions = none) :
    modelOf (settings.skipping false) instructions =
      modelOf (settings.skipping true) instructions := by
  have hstrict := handleAll_skipping h (Builder.new settings) false
  have hlenient := handleAll_skipping h (Builder.new settings) true
  unfold modelOf
  show Except.map _ (((Builder.new settings).skipping false).handleAll instructions) =
    Except.map _ (((Builder.new settings).skipping true).handleAll instructions)
  rw [hstrict, hlenient]
  cases (Builder.new settings).handleAll instructions <;> rfl

/-- An unknown instruction behind known ones is what a strict builder fails at,
unless it has failed before, which is where a lenient one fails too. -/
theorem modelOf_of_unknown {before : List (Instruction α)} {instruction : Instruction α}
    {error : UnknownCommand} (hbefore : firstUnknown? before = none)
    (hunknown : instruction.unknown? = some error) (after : List (Instruction α)) :
    modelOf (settings.skipping false) (before ++ instruction :: after) =
      modelOf (settings.skipping true) before >>= fun _ => .error (.unknownCommand error) := by
  have hstrict : (Builder.new (settings.skipping false)).machine.skipUnknown = false := rfl
  have hrefused := handleAll_of_strict hstrict hunknown before after
  rw [← modelOf_of_known settings hbefore]
  unfold modelOf
  rw [hrefused]
  cases (Builder.new (settings.skipping false)).handleAll before <;> rfl

theorem modelOf_append_of_error {before : List (Instruction α)} {first : BuildError α}
    (h : modelOf settings before = .error first) (after : List (Instruction α)) :
    modelOf settings (before ++ after) = .error first := by
  unfold modelOf at h ⊢
  rw [handleAll_append]
  cases hbefore : (Builder.new settings).handleAll before with
  | ok next =>
      rw [hbefore] at h
      cases h
  | error error =>
      rw [hbefore] at h
      exact h

end
end Builder
end Extrusion
