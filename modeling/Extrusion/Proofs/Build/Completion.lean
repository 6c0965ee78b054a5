import Extrusion.Proofs.Build.Step
import Extrusion.Proofs.Builder.Step

/-!
# How builds end

Whatever the caller does, a build is cancelled, or it ends as one that nobody
stops: with the failure of the first item that fails, or with the model of the
builder that has accepted all items.
-/

namespace Extrusion

variable {α : Type} [Scalar α]

theorem Builder.handleAll_of_acceptAll {builder last : Builder α} {items : List (BuildItem α)}
    (h : builder.acceptAll items = .ok last) :
    ∃ instructions : List (Instruction α), items = instructions.map .ok ∧
      builder.handleAll instructions = .ok last := by
  induction items generalizing builder with
  | nil =>
      cases h
      exact ⟨[], rfl, rfl⟩
  | cons item items ih =>
      obtain ⟨next, haccept, hrest⟩ := acceptAll_cons_eq_ok_iff.mp h
      obtain ⟨instruction, rfl, hhandle⟩ := handle_of_accept haccept
      obtain ⟨instructions, rfl, hinstructions⟩ := ih hrest
      refine ⟨instruction :: instructions, rfl, ?_⟩
      rw [handleAll, hhandle]
      exact hinstructions

namespace Build

inductive Simulated (builder : Builder α) (items : List (BuildItem α)) :
    Except (Outcome α) (Builder α) → Prop where
  | cancelled : Simulated builder items (.error .cancelled)
  | failed {count : Nat} {failure : Failure α} :
      builder.acceptAll items = .error (count, failure) →
        Simulated builder items (.error (.failed failure))
  | through {last : Builder α} :
      builder.acceptAll items = .ok last → Simulated builder items (.ok last)

inductive Ended (builder : Builder α) (items : List (BuildItem α)) : Outcome α → Prop where
  | cancelled : Ended builder items .cancelled
  | failed {count : Nat} {failure : Failure α} :
      builder.acceptAll items = .error (count, failure) → Ended builder items (.failed failure)
  | completed {last : Builder α} :
      builder.acceptAll items = .ok last → Ended builder items (.completed last.toModel)

theorem simulated (control : Control) (history : History) (builder : Builder α)
    (items : List (BuildItem α)) :
    Simulated builder items (simulate control history builder items).2 := by
  induction items generalizing history builder with
  | nil => exact .through rfl
  | cons item items ih =>
      cases hstop : control.stop history.pull with
      | true =>
          rw [simulate_cons_of_stop hstop]
          exact .cancelled
      | false =>
          rw [simulate_cons hstop]
          cases haccept : builder.accept item with
          | error failure => exact .failed (Builder.acceptAll_cons_of_error haccept items)
          | ok next =>
              have hrest := ih (reportSimulated control history.pull.handle) next
              simp only
              generalize (simulate control _ next items).2 = result at hrest ⊢
              cases hrest with
              | cancelled => exact .cancelled
              | failed hfailed =>
                  exact .failed (Builder.acceptAll_cons_eq_error_iff.mpr
                    (Or.inr ⟨next, _, haccept, hfailed, rfl⟩))
              | through hthrough =>
                  exact .through (Builder.acceptAll_cons_eq_ok_iff.mpr ⟨next, haccept, hthrough⟩)

theorem handleAll_of_simulate {control : Control} {history later : History}
    {builder last : Builder α} {items : List (BuildItem α)}
    (h : simulate control history builder items = (later, .ok last)) :
    ∃ instructions : List (Instruction α), items = instructions.map .ok ∧
      builder.handleAll instructions = .ok last := by
  have hsimulated := simulated control history builder items
  rw [h] at hsimulated
  cases hsimulated with
  | through hthrough => exact Builder.handleAll_of_acceptAll hthrough

theorem padLayers_eq_some {control : Control} {history moment : History} {padding : α}
    {total done : Nat} {drafts : List (α × Draft α)} {layers : List (α × Layer α)}
    (h : padLayers control padding total done history drafts = (moment, some layers)) :
    layers = drafts.map fun entry => (entry.1, entry.2.finish padding) := by
  induction drafts generalizing history done layers with
  | nil =>
      cases h
      rfl
  | cons entry rest ih =>
      rcases entry with ⟨z, draft⟩
      rw [padLayers] at h
      by_cases hstop : control.stop history = true
      · rw [if_pos hstop] at h
        cases h
      · rw [if_neg hstop] at h
        rcases hrest : padLayers control padding total (done + 1)
          (history.report .padding (Progress.fractionOf (done + 1) total)) rest with ⟨later, found⟩
        cases found with
        | none =>
            simp only [hrest] at h
            cases h
        | some finished =>
            simp only [hrest] at h
            cases h
            rw [List.map_cons, ← ih hrest]

theorem finish_cases (control : Control) (history : History) (builder : Builder α) :
    (finish control history builder).2 = .cancelled ∨
      (finish control history builder).2 = .completed builder.toModel := by
  rcases hpadded : padLayers control builder.padding builder.print.layers.ascending.length 0
    history builder.print.layers.ascending with ⟨moment, found⟩
  simp only [finish, hpadded]
  cases found with
  | none => exact Or.inl rfl
  | some layers =>
      by_cases hstop : control.stop (moment.report .statistics 1) = true
      · left
        simp only [hstop, if_true]
      · right
        simp only [padLayers_eq_some hpadded, if_neg hstop]
        rfl

theorem eq_of_finish {control : Control} {history : History} {builder : Builder α}
    {model : Model α} (h : (finish control history builder).2 = .completed model) :
    model = builder.toModel := by
  rcases finish_cases control history builder with hcancelled | hcompleted
  · rw [hcancelled] at h
    cases h
  · rw [hcompleted] at h
    cases h
    rfl

theorem ended (control : Control) (settings : BuildSettings α) (items : List (BuildItem α)) :
    Ended (.new settings) items (run control settings items).2 := by
  have hsimulated := simulated control opening (Builder.new settings) items
  rw [run_eq]
  rcases hsimulate : simulate control opening (Builder.new settings) items with ⟨history, result⟩
  rw [hsimulate] at hsimulated
  simp only at hsimulated ⊢
  cases hsimulated with
  | cancelled => exact .cancelled
  | failed hfailed => exact .failed hfailed
  | @through last hthrough =>
      rcases finish_cases control (history.report .simulating 1) last with hfinish | hfinish
      · simp only [hfinish]
        exact .cancelled
      · simp only [hfinish]
        exact .completed hthrough

/-- A build that is completed has handled all items as instructions. -/
theorem replayed_of_run {control : Control} {settings : BuildSettings α}
    {items : List (BuildItem α)} {model : Model α}
    (h : (run control settings items).2 = .completed model) :
    ∃ instructions : List (Instruction α), items = instructions.map .ok ∧
      model = ((Builder.new settings).replay instructions).toModel := by
  have hended := ended control settings items
  rw [h] at hended
  cases hended with
  | completed haccepted =>
      obtain ⟨instructions, hitems, hhandled⟩ := Builder.handleAll_of_acceptAll haccepted
      rw [← Builder.replay_of_handleAll hhandled]
      exact ⟨instructions, hitems, rfl⟩

theorem replayed_of_simulate {control : Control} {history later : History}
    {builder last : Builder α} {before : List (Instruction α)} {items : List (BuildItem α)}
    (h : simulate control history (builder.replay before) items = (later, .ok last)) :
    ∃ instructions : List (Instruction α), items = instructions.map .ok ∧
      last = builder.replay (before ++ instructions) := by
  obtain ⟨instructions, hitems, hhandled⟩ := handleAll_of_simulate h
  rw [← Builder.replay_of_handleAll hhandled, ← Builder.replay_append]
  exact ⟨instructions, hitems, rfl⟩

/-- What holds of every model that a builder gives, with the instructions it was handed,
whatever failed among them. -/
structure EveryModel (settings : BuildSettings α) (holds : List (Instruction α) → Model α → Prop) :
    Prop where
  handed : ∀ instructions, holds instructions ((Builder.new settings).replay instructions).toModel
  finished : ∀ control history instructions model,
    (finish control history ((Builder.new settings).replay instructions)).2 = .completed model →
      holds instructions model
  built : ∀ control items model, (run control settings items).2 = .completed model →
    ∃ instructions : List (Instruction α), items = instructions.map .ok ∧
      holds instructions model
  /-- A stream may also be built by a builder that has handled instructions before. -/
  resumed : ∀ control history later before items builder model,
    simulate control history ((Builder.new settings).replay before) items =
        (later, .ok builder) →
      (finish control (later.report .simulating 1) builder).2 = .completed model →
        ∃ instructions : List (Instruction α), items = instructions.map .ok ∧
          holds (before ++ instructions) model

theorem everyModel_of_handed {settings : BuildSettings α}
    {holds : List (Instruction α) → Model α → Prop}
    (h : ∀ instructions, holds instructions ((Builder.new settings).replay instructions).toModel) :
    EveryModel settings holds where
  handed := h
  finished := by
    intro control history instructions model hfinish
    rw [eq_of_finish hfinish]
    exact h instructions
  built := by
    intro control items model hrun
    obtain ⟨instructions, hitems, rfl⟩ := replayed_of_run hrun
    exact ⟨instructions, hitems, h instructions⟩
  resumed := by
    intro control history later before items builder model hsimulate hfinish
    obtain ⟨instructions, hitems, rfl⟩ := replayed_of_simulate hsimulate
    rw [eq_of_finish hfinish]
    exact ⟨instructions, hitems, h (before ++ instructions)⟩

end Build
end Extrusion
