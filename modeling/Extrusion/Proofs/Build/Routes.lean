import Extrusion.Proofs.Build.Step
import Extrusion.Proofs.Program.Stream

/-!
# Routes to a model

A model can be built from instructions at once, by a builder that is handed one
instruction after the other, and by a build over a stream that may come from
the bytes of a program.  They give the same model or the same first failure,
and a program that cannot be read fails with what comes first.
-/

namespace Extrusion

def Outcome.ofExcept {α : Type} : Except (Failure α) (Model α) → Outcome α
  | .ok model => .completed model
  | .error failure => .failed failure

namespace Build

variable {α : Type} [Scalar α]

section

variable {control : Control} {settings : BuildSettings α}

theorem outcome_of_unstopped (hstop : ∀ moment, control.stop moment = false)
    (items : List (BuildItem α)) :
    (run control settings items).2 =
      match (Builder.new settings).acceptAll items with
      | .error (_, failure) => .failed failure
      | .ok builder => .completed builder.toModel := by
  have hquiet : ∀ moment : History, moment.pulled ≤ items.length →
      control.stop moment = false := by
    intro moment _
    exact hstop moment
  rw [run_of_quiet hquiet]
  cases (Builder.new settings).acceptAll items <;> rfl

theorem ofInstructions_eq (hvalid : settings.validate = .ok ())
    (instructions : List (Instruction α)) :
    Model.ofInstructions settings instructions =
      (((Builder.new settings).handleAll instructions).map Builder.toModel).mapError
        .unbuildable := by
  unfold Model.ofInstructions
  rw [hvalid]
  cases (Builder.new settings).handleAll instructions <;> rfl

theorem outcome_handleAll (hstop : ∀ moment, control.stop moment = false)
    (instructions : List (Instruction α)) :
    (run control settings (instructions.map .ok)).2 =
      .ofExcept ((((Builder.new settings).handleAll instructions).map Builder.toModel).mapError
        .unbuildable) := by
  have haccept := Builder.acceptAll_map_ok (Builder.new settings) instructions
  rw [outcome_of_unstopped hstop]
  cases hhandle : (Builder.new settings).handleAll instructions with
  | error error =>
      rw [hhandle] at haccept
      rcases haccept with ⟨count, haccept⟩
      rw [haccept]
      rfl
  | ok last =>
      rw [hhandle] at haccept
      simp only at haccept
      rw [haccept]
      rfl

theorem outcome_instructions (hvalid : settings.validate = .ok ())
    (hstop : ∀ moment, control.stop moment = false) (instructions : List (Instruction α)) :
    (run control settings (instructions.map .ok)).2 =
      .ofExcept (Model.ofInstructions settings instructions) := by
  rw [outcome_handleAll hstop, ofInstructions_eq hvalid]

/-- A failure behind some instructions counts only where they can be built. -/
theorem outcome_instructions_failure (hvalid : settings.validate = .ok ())
    (hstop : ∀ moment, control.stop moment = false) (instructions : List (Instruction α))
    (failure : Failure α) :
    (run control settings (instructions.map .ok ++ [.error failure])).2 =
      match Model.ofInstructions settings instructions with
      | .error first => .failed first
      | .ok _ => .failed failure := by
  have haccept := Builder.acceptAll_map_ok (Builder.new settings) instructions
  rw [outcome_of_unstopped hstop, ofInstructions_eq hvalid, Builder.acceptAll_append]
  cases hhandle : (Builder.new settings).handleAll instructions with
  | error error =>
      rw [hhandle] at haccept
      rcases haccept with ⟨count, haccept⟩
      rw [haccept]
      rfl
  | ok last =>
      rw [hhandle] at haccept
      simp only at haccept
      rw [haccept]
      rfl

end

theorem load_of_valid {control : Control} {settings : BuildSettings Float}
    (hvalid : settings.validate = .ok ()) (bytes : List UInt8) :
    load control settings (some bytes) =
      run control settings (InstructionStream.ofBytes settings.skipUnknown bytes).items := by
  unfold load
  rw [hvalid]

/-- What the routes to a model have in common. -/
structure RoutesAgree (control : Control) (settings : BuildSettings Float) : Prop where
  handled : ∀ instructions : List (Instruction Float),
    Model.ofInstructions settings instructions =
      (((Builder.new settings).handleAll instructions).map Builder.toModel).mapError .unbuildable
  streamed : ∀ instructions : List (Instruction Float),
    (run control settings (instructions.map .ok)).2 =
      .ofExcept (Model.ofInstructions settings instructions)
  loaded : ∀ bytes text instructions, Text.decode? bytes = some text →
    Program.readText settings.skipUnknown text = .ok instructions →
      (load control settings (some bytes)).2 =
        .ofExcept (Model.ofInstructions settings instructions)
  /-- The lines in front of one that cannot be read are built first. -/
  malformed : ∀ bytes text error, Text.decode? bytes = some text →
    Program.readText settings.skipUnknown text = .error error →
      0 < error.lineNumber ∧ error.lineNumber ≤ (Text.lines text).length ∧
      ∃ before,
        Program.readLines settings.skipUnknown 1 ((Text.lines text).take (error.lineNumber - 1)) =
          .ok before ∧
        (load control settings (some bytes)).2 =
          match Model.ofInstructions settings before with
          | .error first => .failed first
          | .ok _ => .failed (.malformed error)

theorem routesAgree_of_valid {settings : BuildSettings Float} (hvalid : settings.validate = .ok ())
    {control : Control} (hstop : ∀ moment, control.stop moment = false) :
    RoutesAgree control settings where
  handled := ofInstructions_eq hvalid
  streamed := outcome_instructions hvalid hstop
  loaded := by
    intro bytes text instructions hdecode hread
    rw [← Text.readable_of_decode hdecode] at hread
    have hitems := InstructionStream.items_of_readText hread
    rw [InstructionStream.ending, if_pos (Text.allText_of_decode hdecode), List.append_nil]
      at hitems
    rw [load_of_valid hvalid, hitems]
    exact outcome_instructions hvalid hstop instructions
  malformed := by
    intro bytes text error hdecode hread
    have htext := Text.readable_of_decode hdecode
    rw [← htext] at hread
    rcases InstructionStream.items_of_readText_error hread with
      ⟨hlow, hhigh, before, hbefore, hitems⟩
    rw [htext] at hhigh hbefore
    refine ⟨hlow, hhigh, before, hbefore, ?_⟩
    rw [load_of_valid hvalid, hitems, outcome_instructions_failure hvalid hstop]
    cases Model.ofInstructions settings before <;> rfl

theorem routesAgree_default :
    (BuildSettings.default : BuildSettings Float).validate = .ok () ∧
      (∀ moment : History, (⟨some 2, fun _ => false⟩ : Control).stop moment = false) ∧
      RoutesAgree ⟨some 2, fun _ => false⟩ .default := by
  have hvalid : (BuildSettings.default : BuildSettings Float).validate = .ok () := by
    decide +kernel
  have hstop : ∀ moment : History, (⟨some 2, fun _ => false⟩ : Control).stop moment = false := by
    intro moment
    rfl
  exact ⟨hvalid, hstop, routesAgree_of_valid hvalid hstop⟩

end Build
end Extrusion
