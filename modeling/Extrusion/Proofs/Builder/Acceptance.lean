import Extrusion.Proofs.Builder.Step
import Extrusion.Proofs.Print.Gathering

/-!
# Accepted depositions

A builder may be driven on past instructions that fail.  Those leave nothing
behind: the print holds the depositions of the instructions that were accepted,
and no others.  A demotion parts them into those of the priming layer, which
came first, and those of the other layers.
-/

namespace Extrusion

open Scalar LayerStack

variable {α : Type} [Scalar α]

namespace Builder

/-- The depositions that a builder accepts of some instructions.  An instruction is
passed over if it fails or deposits nothing. -/
inductive Accepts : Builder α → List (Instruction α) → List (Deposition α) → Prop where
  | nil (builder : Builder α) : Accepts builder [] []
  | deposit {builder : Builder α} {instruction : Instruction α} {rest : List (Instruction α)}
      {corners : List (Vec2 α)} {depositions : List (Deposition α)}
      (accepted : (builder.handle instruction).2 = none)
      (here : builder.DepositsAlong instruction corners)
      (later : Accepts (builder.handle instruction).1 rest depositions) :
      Accepts builder (instruction :: rest)
        (.along corners (builder.stateAfter instruction) :: depositions)
  | pass {builder : Builder α} {instruction : Instruction α} {rest : List (Instruction α)}
      {depositions : List (Deposition α)}
      (idle : (builder.handle instruction).2 ≠ none ∨
        ¬ IsDeposition builder.machine.current (builder.stateAfter instruction)
          instruction.command)
      (later : Accepts (builder.handle instruction).1 rest depositions) :
      Accepts builder (instruction :: rest) depositions

theorem Accepts.append {builder : Builder α} {first second : List (Instruction α)}
    {early late : List (Deposition α)} (hfirst : Accepts builder first early)
    (hsecond : Accepts (builder.replay first) second late) :
    Accepts builder (first ++ second) (early ++ late) := by
  induction hfirst with
  | nil builder => exact hsecond
  | deposit accepted here later ih => exact .deposit accepted here (ih hsecond)
  | pass idle later ih => exact .pass idle (ih hsecond)

theorem Accepts.unique {builder : Builder α} {instructions : List (Instruction α)}
    {depositions others : List (Deposition α)} (h : Accepts builder instructions depositions)
    (hothers : Accepts builder instructions others) : depositions = others := by
  induction h generalizing others with
  | nil builder =>
      cases hothers
      rfl
  | deposit accepted here later ih =>
      cases hothers with
      | deposit accepted' here' later' =>
          rw [Deposition.deposits_unique here here', ih later']
      | pass idle later' =>
          rcases idle with hfailed | hidle
          · exact absurd accepted hfailed
          · exact absurd (Deposition.isDeposition_of_deposits here) hidle
  | pass idle later ih =>
      cases hothers with
      | deposit accepted here later' =>
          rcases idle with hfailed | hidle
          · exact absurd accepted hfailed
          · exact absurd (Deposition.isDeposition_of_deposits here) hidle
      | pass idle' later' => exact ih later'

end Builder

/-!
# Prints
-/

/-- Depositions at one height, and others of which the first one descends from there. -/
structure Demoted (height : α) (primed regular : List (Deposition α)) : Prop where
  occupied : primed ≠ []
  level : ∀ deposition ∈ primed, (deposition.height == height) = true
  descent : ∃ deposition late, regular = deposition :: late ∧ deposition.height < height

theorem Demoted.append {height : α} {primed regular : List (Deposition α)}
    (h : Demoted height primed regular) (more : List (Deposition α)) :
    Demoted height primed (regular ++ more) := by
  rcases h.descent with ⟨deposition, late, rfl, hlt⟩
  exact ⟨h.occupied, h.level, deposition, late ++ more, rfl, hlt⟩

/-- A print holds some depositions in its priming layer, and some in its other layers. -/
structure Print.Holds (print : Print α) (primed regular : List (Deposition α)) : Prop where
  layers : print.layers.Gathers regular
  unprimed : print.priming = none → primed = []
  priming : ∀ height draft, print.priming = some (height, draft) →
    Demoted height primed regular ∧ draft.Collects primed

theorem Print.holds_empty : (Print.empty : Print α).Holds [] [] where
  layers := gathers_empty
  unprimed _ := rfl
  priming := nofun

variable [LawfulOrder α]

/-- A demotion takes everything that was held into the priming layer. -/
theorem Print.Holds.step {print next : Print α} {primed regular : List (Deposition α)}
    {deposition : Deposition α} (h : print.Holds primed regular) (hprint : print.Consistent)
    (hz : IsNumber deposition.height) (hstep : Step print deposition next) :
    ∃ primed' regular', primed' ++ regular' = primed ++ (regular ++ [deposition]) ∧
      next.Holds primed' regular' := by
  have hupdated := h.layers.update hprint.layers hz
  have hpriming : ∀ height draft, print.priming = some (height, draft) →
      Demoted height primed (regular ++ [deposition]) ∧ draft.Collects primed := by
    intro height draft hsome
    rcases h.priming height draft hsome with ⟨hdemoted, hcollects⟩
    exact ⟨hdemoted.append [deposition], hcollects⟩
  cases hstep with
  | again known => exact ⟨primed, regular ++ [deposition], rfl, hupdated, h.unprimed, hpriming⟩
  | above new rising => exact ⟨primed, regular ++ [deposition], rfl, hupdated, h.unprimed, hpriming⟩
  | below draft single falling unprimed =>
      refine ⟨regular, [deposition], ?_, gathers_empty.update wellFormed_empty hz, nofun, ?_⟩
      · rw [h.unprimed unprimed, List.nil_append]
      · rintro height found hfound
        cases hfound
        rcases h.layers.single single (isNumber_right_of_lt falling) with ⟨hne, hlevel, hcollects⟩
        exact ⟨⟨hne, hlevel, deposition, [], rfl, falling⟩, hcollects⟩

/-!
# Runs
-/

namespace Builder

theorem holds_handle {builder : Builder α} {primed regular : List (Deposition α)}
    (hprint : builder.print.Consistent) (h : builder.print.Holds primed regular)
    (instruction : Instruction α) :
    ∃ more primed' regular', Accepts builder [instruction] more ∧
      primed' ++ regular' = primed ++ (regular ++ more) ∧
      (builder.handle instruction).1.print.Holds primed' regular' := by
  by_cases hok : (builder.handle instruction).2 = none
  · rcases handle_accepted hok with ⟨_, _, ⟨hidle, hsame⟩ | ⟨corners, hdeposits, hadd⟩⟩
    · refine ⟨[], primed, regular, .pass (Or.inr hidle) (.nil _), ?_, ?_⟩
      · rw [List.append_nil]
      · rw [hsame]
        exact h
    · have hz := Deposition.isNumber_of_deposits hdeposits
      rcases h.step hprint hz (Print.step_of_add hprint hz hadd) with
        ⟨primed', regular', hall, hnext⟩
      exact ⟨_, primed', regular', .deposit hok hdeposits (.nil _), hall, hnext⟩
  · refine ⟨[], primed, regular, .pass (Or.inl hok) (.nil _), ?_, ?_⟩
    · rw [List.append_nil]
    · rw [print_handle_of_failed hok]
      exact h

theorem holds_replay {builder : Builder α} {primed regular : List (Deposition α)}
    (hprint : builder.print.Consistent) (h : builder.print.Holds primed regular)
    (instructions : List (Instruction α)) :
    ∃ more primed' regular', Accepts builder instructions more ∧
      primed' ++ regular' = primed ++ (regular ++ more) ∧
      (builder.replay instructions).print.Holds primed' regular' := by
  induction instructions generalizing builder primed regular with
  | nil =>
      refine ⟨[], primed, regular, .nil _, ?_, h⟩
      rw [List.append_nil]
  | cons instruction rest ih =>
      rcases holds_handle hprint h instruction with ⟨here, primed', regular', hhere, hall, hnext⟩
      rcases ih (consistent_handle hprint instruction) hnext with
        ⟨later, primed'', regular'', hlater, hall', hlast⟩
      refine ⟨here ++ later, primed'', regular'', hhere.append hlater, ?_, hlast⟩
      rw [hall', ← List.append_assoc, hall]
      simp only [List.append_assoc]

/-- What a builder holds after some instructions is what it has accepted of them. -/
theorem holds_replay_new (settings : BuildSettings α) (instructions : List (Instruction α)) :
    ∃ primed regular, Accepts (Builder.new settings) instructions (primed ++ regular) ∧
      ((Builder.new settings).replay instructions).print.Holds primed regular := by
  have hnew : (Builder.new settings).print.Consistent := Print.consistent_empty
  rcases holds_replay hnew Print.holds_empty instructions with
    ⟨more, primed, regular, haccepts, hall, hholds⟩
  refine ⟨primed, regular, ?_, hholds⟩
  rw [hall]
  exact haccepts

end Builder
end Extrusion
