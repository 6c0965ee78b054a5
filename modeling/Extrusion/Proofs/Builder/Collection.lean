import Extrusion.Proofs.Builder.Priming
import Extrusion.Proofs.Print.Gathering

/-!
# Collecting a run

The depositions of a run, said without a builder: the machine goes from state
to state, and every move that deposits adds one.  A builder that accepts the
run has gathered exactly these depositions.  Where a layer was demoted on the
way, the priming layer has all depositions before and the other layers have the
rest.
-/

namespace Extrusion

open Scalar LayerStack

variable {α : Type} [Scalar α]

def MachineState.afterAll (state : MachineState α) (instructions : List (Instruction α)) :
    MachineState α :=
  instructions.foldl (fun state instruction => state.after instruction.command) state

/-- The depositions that instructions make from a state on. -/
inductive RunDeposits (maxError : α) :
    MachineState α → List (Instruction α) → List (Deposition α) → Prop where
  | nil (state : MachineState α) : RunDeposits maxError state [] []
  | deposit {state : MachineState α} {instruction : Instruction α}
      {rest : List (Instruction α)} {corners : List (Vec2 α)} {depositions : List (Deposition α)}
      (here : Deposits maxError state (state.after instruction.command) instruction.command corners)
      (later : RunDeposits maxError (state.after instruction.command) rest depositions) :
      RunDeposits maxError state (instruction :: rest)
        (.along corners (state.after instruction.command) :: depositions)
  | pass {state : MachineState α} {instruction : Instruction α}
      {rest : List (Instruction α)} {depositions : List (Deposition α)}
      (here : ¬ IsDeposition state (state.after instruction.command) instruction.command)
      (later : RunDeposits maxError (state.after instruction.command) rest depositions) :
      RunDeposits maxError state (instruction :: rest) depositions

theorem RunDeposits.append {maxError : α} {state : MachineState α}
    {first second : List (Instruction α)} {early late : List (Deposition α)}
    (hfirst : RunDeposits maxError state first early)
    (hsecond : RunDeposits maxError (state.afterAll first) second late) :
    RunDeposits maxError state (first ++ second) (early ++ late) := by
  induction hfirst with
  | nil state => exact hsecond
  | deposit here later ih => exact .deposit here (ih hsecond)
  | pass here later ih => exact .pass here (ih hsecond)

theorem RunDeposits.unique {maxError : α} {state : MachineState α}
    {instructions : List (Instruction α)} {depositions others : List (Deposition α)}
    (h : RunDeposits maxError state instructions depositions)
    (hothers : RunDeposits maxError state instructions others) : depositions = others := by
  induction h generalizing others with
  | nil state =>
      cases hothers
      rfl
  | deposit here later ih =>
      cases hothers with
      | deposit here' later' => rw [Deposition.deposits_unique here here', ih later']
      | pass idle later' => exact absurd (Deposition.isDeposition_of_deposits here) idle
  | pass idle later ih =>
      cases hothers with
      | deposit here later' => exact absurd (Deposition.isDeposition_of_deposits here) idle
      | pass idle' later' => exact ih later'

namespace Builder

theorem settings_handleAll {builder final : Builder α} {instructions : List (Instruction α)}
    (h : builder.handleAll instructions = .ok final) : final.settings = builder.settings := by
  induction instructions generalizing builder with
  | nil =>
      cases h
      rfl
  | cons instruction rest ih =>
      rcases handleAll_cons_eq_ok_iff.mp h with ⟨hok, hrest⟩
      rw [ih hrest]
      exact (handle_accepted hok).1

theorem current_handleAll {builder final : Builder α} {instructions : List (Instruction α)}
    (h : builder.handleAll instructions = .ok final) :
    final.machine.current = builder.machine.current.afterAll instructions := by
  induction instructions generalizing builder with
  | nil =>
      cases h
      rfl
  | cons instruction rest ih =>
      rcases handleAll_cons_eq_ok_iff.mp h with ⟨hok, hrest⟩
      rw [ih hrest, (handle_accepted hok).2.1]
      rfl

/-- A run to a priming layer splits at the instruction that demotes it. -/
theorem exists_demotion {builder final : Builder α} {instructions : List (Instruction α)}
    (h : builder.handleAll instructions = .ok final) (hbefore : builder.print.priming = none)
    (hafter : final.print.priming ≠ none) :
    ∃ before instruction later middle,
      instructions = before ++ instruction :: later ∧
      builder.handleAll before = .ok middle ∧ middle.print.priming = none ∧
      (middle.handle instruction).2 = none ∧
      (middle.handle instruction).1.print.priming ≠ none ∧
      (middle.handle instruction).1.handleAll later = .ok final := by
  induction instructions generalizing builder with
  | nil =>
      cases h
      exact absurd hbefore hafter
  | cons instruction rest ih =>
      rcases handleAll_cons_eq_ok_iff.mp h with ⟨hok, hrest⟩
      cases hnext : (builder.handle instruction).1.print.priming with
      | some layer =>
          refine ⟨[], instruction, rest, builder, rfl, rfl, hbefore, hok, ?_, hrest⟩
          rw [hnext]
          simp
      | none =>
          rcases ih hrest hnext with ⟨before, found, later, middle, hsplit, hmiddle, hdemotion⟩
          refine ⟨instruction :: before, found, later, middle, ?_, ?_, hdemotion⟩
          · rw [hsplit, List.cons_append]
          · exact handleAll_cons_eq_ok_iff.mpr ⟨hok, hmiddle⟩

variable [LawfulOrder α]

theorem gathers_handle {builder : Builder α} {instruction : Instruction α}
    {depositions : List (Deposition α)} (hprint : builder.print.Consistent)
    (h : builder.print.layers.Gathers depositions)
    (hok : (builder.handle instruction).2 = none)
    (hpriming : (builder.handle instruction).1.print.priming = builder.print.priming) :
    ∃ more, RunDeposits builder.settings.arcMaxError builder.machine.current [instruction] more ∧
      (builder.handle instruction).1.print.layers.Gathers (depositions ++ more) := by
  rcases handle_accepted hok with ⟨_, _, ⟨hidle, hsame⟩ | ⟨corners, hdeposits, hadd⟩⟩
  · refine ⟨[], .pass hidle (.nil _), ?_⟩
    rw [hsame, List.append_nil]
    exact h
  · refine ⟨_, .deposit hdeposits (.nil _), ?_⟩
    have hz := Deposition.isNumber_of_deposits hdeposits
    have hupdated := h.update hprint.layers hz
    have hstep := Print.step_of_add hprint hz hadd
    generalize (builder.handle instruction).1.print = next at hstep hpriming ⊢
    cases hstep with
    | again known => exact hupdated
    | above new rising => exact hupdated
    | below draft single falling unprimed =>
        rw [unprimed] at hpriming
        cases hpriming

theorem gathers_handleAll {builder final : Builder α} {instructions : List (Instruction α)}
    {depositions : List (Deposition α)} (hprint : builder.print.Consistent)
    (h : builder.print.layers.Gathers depositions)
    (hrun : builder.handleAll instructions = .ok final)
    (hpriming : final.print.priming = builder.print.priming) :
    ∃ more,
      RunDeposits builder.settings.arcMaxError builder.machine.current instructions more ∧
        final.print.layers.Gathers (depositions ++ more) := by
  induction instructions generalizing builder depositions with
  | nil =>
      cases hrun
      refine ⟨[], .nil _, ?_⟩
      rw [List.append_nil]
      exact h
  | cons instruction rest ih =>
      rcases handleAll_cons_eq_ok_iff.mp hrun with ⟨hok, hrest⟩
      have hreplay : (builder.replay (instruction :: rest)).print.priming =
          builder.print.priming := by
        rw [replay_of_handleAll hrun]
        exact hpriming
      have hkept := priming_handle_of_replay hprint hreplay
      rcases gathers_handle hprint h hok hkept with ⟨here, hhere, hnext⟩
      rcases ih (consistent_handle hprint instruction) hnext hrest (hpriming.trans hkept.symm)
        with ⟨later, hlater, hfinal⟩
      rcases handle_accepted hok with ⟨hsettings, hcurrent, _⟩
      rw [hsettings, hcurrent] at hlater
      refine ⟨here ++ later, hhere.append hlater, ?_⟩
      rw [← List.append_assoc]
      exact hfinal

/-- A demotion leaves everything that was gathered in the priming layer, and
starts to gather anew. -/
theorem gathers_demotion {builder : Builder α} {instruction : Instruction α}
    {depositions : List (Deposition α)} (hprint : builder.print.Consistent)
    (h : builder.print.layers.Gathers depositions)
    (hok : (builder.handle instruction).2 = none) (hbefore : builder.print.priming = none)
    (hafter : (builder.handle instruction).1.print.priming ≠ none) :
    ∃ deposition height draft,
      RunDeposits builder.settings.arcMaxError builder.machine.current [instruction] [deposition] ∧
      builder.print.Demotes deposition.height height ∧ deposition.height < height ∧
      depositions ≠ [] ∧ (∀ early ∈ depositions, (early.height == height) = true) ∧
      draft.Collects depositions ∧
      (builder.handle instruction).1.print.priming = some (height, draft) ∧
      (builder.handle instruction).1.print.layers.Gathers [deposition] := by
  rcases handle_accepted hok with ⟨_, _, ⟨_, hsame⟩ | ⟨corners, hdeposits, hadd⟩⟩
  · rw [hsame] at hafter
    exact absurd hbefore hafter
  · have hz := Deposition.isNumber_of_deposits hdeposits
    have hstep := Print.step_of_add hprint hz hadd
    have hrun : RunDeposits builder.settings.arcMaxError builder.machine.current [instruction]
        [.along corners (builder.stateAfter instruction)] := .deposit hdeposits (.nil _)
    generalize Deposition.along corners (builder.stateAfter instruction) = deposition
      at hz hstep hrun
    generalize (builder.handle instruction).1.print = next at hstep hafter ⊢
    cases hstep with
    | again known => exact absurd hbefore hafter
    | above new rising => exact absurd hbefore hafter
    | below draft single falling unprimed =>
        have hlast := isNumber_right_of_lt falling
        rcases h.single single hlast with ⟨hne, hheights, hcollects⟩
        have hgathers := gathers_empty.update wellFormed_empty hz
        exact ⟨deposition, _, draft, hrun, Print.demotes_of_single single falling hprint unprimed,
          falling, hne, hheights, hcollects, rfl, hgathers⟩

/-- What a builder of the program has collected after a run. -/
theorem collected_of_handleAll_new (settings : BuildSettings Float)
    (instructions : List (Instruction Float)) (builder : Builder Float)
    (h : (Builder.new settings).handleAll instructions = .ok builder) :
    (builder.print.priming = none →
      ∃ depositions, RunDeposits settings.arcMaxError .initial instructions depositions ∧
        builder.print.layers.Gathers depositions) ∧
    (∀ height draft, builder.print.priming = some (height, draft) →
      ∃ before instruction later early deposition late,
        instructions = before ++ instruction :: later ∧
        RunDeposits settings.arcMaxError .initial before early ∧
        RunDeposits settings.arcMaxError .initial (before ++ [instruction])
          (early ++ [deposition]) ∧
        RunDeposits settings.arcMaxError .initial instructions (early ++ deposition :: late) ∧
        ((Builder.new settings).replay before).print.Demotes deposition.height height ∧
        deposition.height < height ∧
        early ≠ [] ∧ (∀ deposition ∈ early, (deposition.height == height) = true) ∧
        draft.Collects early ∧ builder.print.layers.Gathers (deposition :: late)) := by
  have hnew : (Builder.new settings).print.Consistent := Print.consistent_empty
  have hnothing : (Builder.new settings).print.layers.Gathers [] := gathers_empty
  constructor
  · intro hpriming
    exact gathers_handleAll hnew hnothing h hpriming
  · intro height draft hpriming
    have hprimed : builder.print.priming ≠ none := by
      rw [hpriming]
      simp
    rcases exists_demotion h rfl hprimed with
      ⟨before, instruction, later, middle, rfl, hbefore, hnone, hok, hsome, hlater⟩
    -- Up to the demotion everything is in one layer, and from it on nothing is demoted.
    rcases gathers_handleAll hnew hnothing hbefore hnone with ⟨early, hearly, hgathered⟩
    have hmiddle : middle.print.Consistent := by
      rw [← replay_of_handleAll hbefore]
      exact consistent_replay hnew before
    rcases gathers_demotion hmiddle hgathered hok hnone hsome with
      ⟨deposition, height', draft', hhere, hdemotes, hlt, hne, hheights, hcollects, hnext, hstart⟩
    have hfinal : builder.print.priming = some (height', draft') := by
      rw [← replay_of_handleAll hlater]
      exact priming_replay (consistent_handle hmiddle instruction) hnext later
    rw [hpriming] at hfinal
    cases hfinal
    rcases gathers_handleAll (consistent_handle hmiddle instruction) hstart hlater
      (hpriming.trans hnext.symm) with ⟨late, hlate, hrest⟩
    rcases handle_accepted hok with ⟨hsettings, hcurrent, _⟩
    rw [hsettings, hcurrent, stateAfter, settings_handleAll hbefore, current_handleAll hbefore]
      at hlate
    rw [settings_handleAll hbefore, current_handleAll hbefore] at hhere
    have hdemotion := hearly.append hhere
    have hall := hearly.append (hhere.append hlate)
    refine ⟨before, instruction, later, early, deposition, late, rfl, hearly, hdemotion, hall, ?_,
      hlt, hne, hheights, hcollects, hrest⟩
    rw [replay_of_handleAll hbefore]
    exact hdemotes

def purging : List (Instruction Float) :=
  [.straight 1 none (some 0.1) none, .straight 2 (some 5) none (some 1),
    .straight 3 none (some 0.05) none, .straight 4 (some 0) none (some 2)]

theorem collected_of_purging :
    ∃ builder, (Builder.new ⟨0.4, 0.05, true⟩).handleAll purging = .ok builder ∧
      ∃ height draft early deposition late,
        builder.print.priming = some (height, draft) ∧
        RunDeposits 0.05 .initial purging (early ++ deposition :: late) ∧
        draft.Collects early ∧ builder.print.layers.Gathers (deposition :: late) := by
  have hrun : (Builder.new ⟨0.4, 0.05, true⟩).handleAll purging =
      .ok ((Builder.new ⟨0.4, 0.05, true⟩).replay purging) := rfl
  have hprimed : ((Builder.new ⟨0.4, 0.05, true⟩).replay purging).print.priming.isSome = true := by
    decide +kernel
  rcases Option.isSome_iff_exists.mp hprimed with ⟨⟨height, draft⟩, hpriming⟩
  rcases (collected_of_handleAll_new _ purging _ hrun).2 height draft hpriming with
    ⟨_, _, _, early, deposition, late, _, _, _, hall, _, _, _, _, hcollects, hgathers⟩
  exact ⟨_, hrun, height, draft, early, deposition, late, hpriming, hall, hcollects, hgathers⟩

end Builder
end Extrusion
