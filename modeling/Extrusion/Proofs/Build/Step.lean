import Extrusion.Build
import Extrusion.Proofs.Results

/-!
# Steps of a build

As long as nobody stops it, a build depends on its items only through the
builder: it accepts them one by one up to the first that fails, and when there
is none it finishes the builder it ends with.  What it reports on the way
depends on how far it comes.
-/

namespace Extrusion

abbrev BuildItem (α : Type) := Except (Failure α) (Instruction α)

namespace Builder

variable {α : Type} [Scalar α]

/-!
## Accepting items
-/

def accept (builder : Builder α) : BuildItem α → Except (Failure α) (Builder α)
  | .error failure => .error failure
  | .ok instruction =>
      match builder.handle instruction with
      | (_, some error) => .error (.unbuildable error)
      | (next, none) => .ok next

/-- Accepts items up to the first one that fails.  Its failure comes with the
number of items in front of it. -/
def acceptAll (builder : Builder α) : List (BuildItem α) → Except (Nat × Failure α) (Builder α)
  | [] => .ok builder
  | item :: items =>
      match builder.accept item with
      | .error failure => .error (0, failure)
      | .ok next => (next.acceptAll items).mapError fun (count, failure) => (count + 1, failure)

theorem handle_of_accept {builder next : Builder α} {item : BuildItem α}
    (h : builder.accept item = .ok next) :
    ∃ instruction, item = .ok instruction ∧ builder.handle instruction = (next, none) := by
  cases item with
  | error failure => cases h
  | ok instruction =>
      rw [accept] at h
      rcases hhandle : builder.handle instruction with ⟨after, found⟩
      rw [hhandle] at h
      cases found with
      | some error => cases h
      | none =>
          cases h
          exact ⟨instruction, rfl, hhandle⟩

theorem handle_of_accept_error {builder : Builder α} {item : BuildItem α} {failure : Failure α}
    (h : builder.accept item = .error failure) :
    item = .error failure ∨
      ∃ instruction error, item = .ok instruction ∧
        (builder.handle instruction).2 = some error ∧ failure = .unbuildable error := by
  cases item with
  | error failure' =>
      cases h
      exact Or.inl rfl
  | ok instruction =>
      rw [accept] at h
      rcases hhandle : builder.handle instruction with ⟨after, found⟩
      rw [hhandle] at h
      cases found with
      | none => cases h
      | some error =>
          cases h
          exact Or.inr ⟨instruction, error, rfl, by rw [hhandle], rfl⟩

theorem acceptAll_cons_of_error {builder : Builder α} {item : BuildItem α} {failure : Failure α}
    (h : builder.accept item = .error failure) (items : List (BuildItem α)) :
    builder.acceptAll (item :: items) = .error (0, failure) := by
  rw [acceptAll, h]

theorem acceptAll_cons_of_ok {builder next : Builder α} {item : BuildItem α}
    (h : builder.accept item = .ok next) (items : List (BuildItem α)) :
    builder.acceptAll (item :: items) =
      (next.acceptAll items).mapError fun (count, failure) => (count + 1, failure) := by
  rw [acceptAll, h]

theorem acceptAll_cons_eq_ok_iff {builder last : Builder α} {item : BuildItem α}
    {items : List (BuildItem α)} :
    builder.acceptAll (item :: items) = .ok last ↔
      ∃ next, builder.accept item = .ok next ∧ next.acceptAll items = .ok last := by
  cases haccept : builder.accept item with
  | error failure =>
      rw [acceptAll_cons_of_error haccept]
      simp
  | ok next =>
      rw [acceptAll_cons_of_ok haccept, mapError_eq_ok_iff]
      simp

theorem acceptAll_cons_eq_error_iff {builder : Builder α} {item : BuildItem α}
    {items : List (BuildItem α)} {count : Nat} {failure : Failure α} :
    builder.acceptAll (item :: items) = .error (count, failure) ↔
      (builder.accept item = .error failure ∧ count = 0) ∨
        ∃ next later, builder.accept item = .ok next ∧
          next.acceptAll items = .error (later, failure) ∧ count = later + 1 := by
  cases haccept : builder.accept item with
  | error found =>
      rw [acceptAll_cons_of_error haccept]
      simp [eq_comm, and_comm]
  | ok next =>
      rw [acceptAll_cons_of_ok haccept, mapError_eq_error_iff]
      simp [eq_comm]

theorem failure_acceptAll_cons {builder next : Builder α} {item : BuildItem α}
    (h : builder.accept item = .ok next) (items : List (BuildItem α)) :
    (builder.acceptAll (item :: items)).mapError Prod.snd =
      (next.acceptAll items).mapError Prod.snd := by
  rw [acceptAll_cons_of_ok h]
  cases next.acceptAll items <;> rfl

theorem acceptAll_append (builder : Builder α) (front rest : List (BuildItem α)) :
    builder.acceptAll (front ++ rest) =
      match builder.acceptAll front with
      | .error failed => .error failed
      | .ok next =>
          (next.acceptAll rest).mapError fun (count, failure) =>
            (front.length + count, failure) := by
  induction front generalizing builder with
  | nil =>
      show builder.acceptAll rest = (builder.acceptAll rest).mapError _
      cases builder.acceptAll rest with
      | ok last => rfl
      | error failed =>
          rcases failed with ⟨count, failure⟩
          show Except.error (count, failure) = .error (0 + count, failure)
          rw [Nat.zero_add]
  | cons item front ih =>
      rw [List.cons_append, acceptAll, acceptAll]
      cases builder.accept item with
      | error failure => rfl
      | ok next =>
          simp only [ih]
          cases next.acceptAll front with
          | error failed => rfl
          | ok last =>
              show ((last.acceptAll rest).mapError _).mapError _ = (last.acceptAll rest).mapError _
              cases last.acceptAll rest with
              | ok final => rfl
              | error failed =>
                  rcases failed with ⟨count, failure⟩
                  show Except.error (front.length + count + 1, failure) =
                    .error (front.length + 1 + count, failure)
                  rw [Nat.add_right_comm]

theorem acceptAll_map_ok (builder : Builder α) (instructions : List (Instruction α)) :
    match builder.handleAll instructions with
    | .ok last => builder.acceptAll (instructions.map .ok) = .ok last
    | .error error =>
        ∃ count, builder.acceptAll (instructions.map .ok) = .error (count, .unbuildable error) := by
  induction instructions generalizing builder with
  | nil => rfl
  | cons instruction rest ih =>
      rw [List.map_cons, acceptAll, accept, handleAll]
      rcases builder.handle instruction with ⟨next, found⟩
      cases found with
      | some error => exact ⟨0, rfl⟩
      | none =>
          have hrest := ih next
          simp only
          cases hhandle : next.handleAll rest with
          | ok last =>
              rw [hhandle] at hrest
              simp only at hrest ⊢
              rw [hrest]
              rfl
          | error error =>
              rw [hhandle] at hrest
              rcases hrest with ⟨count, hrest⟩
              refine ⟨count + 1, ?_⟩
              rw [hrest]
              rfl

end Builder

namespace Build

variable {α : Type} [Scalar α]

/-!
## Simulating
-/

def afterItems (control : Control) : Nat → History → History
  | 0, history => history
  | count + 1, history => afterItems control count (reportSimulated control history.pull.handle)

theorem counts_reportSimulated (control : Control) (history : History) :
    (reportSimulated control history).pulled = history.pulled ∧
      (reportSimulated control history).handled = history.handled := by
  unfold reportSimulated
  split
  · split <;> exact ⟨rfl, rfl⟩
  · exact ⟨rfl, rfl⟩

theorem counts_afterItems (control : Control) (count : Nat) (history : History) :
    (afterItems control count history).pulled = history.pulled + count ∧
      (afterItems control count history).handled = history.handled + count := by
  induction count generalizing history with
  | zero => exact ⟨rfl, rfl⟩
  | succ count ih =>
      rcases ih (reportSimulated control history.pull.handle) with ⟨hpulled, hhandled⟩
      rcases counts_reportSimulated control history.pull.handle with ⟨hpulled', hhandled'⟩
      rw [afterItems, hpulled, hhandled, hpulled', hhandled']
      show history.pulled + 1 + count = _ ∧ history.handled + 1 + count = _
      omega

theorem afterItems_congr {control other : Control} (h : control.expected = other.expected)
    (count : Nat) (history : History) :
    afterItems control count history = afterItems other count history := by
  induction count generalizing history with
  | zero => rfl
  | succ count ih =>
      have hreport : reportSimulated control history.pull.handle =
          reportSimulated other history.pull.handle := by
        unfold reportSimulated
        rw [h]
      rw [afterItems, afterItems, hreport, ih]

section

variable {control : Control} {history : History} {builder : Builder α} {item : BuildItem α}
  {items : List (BuildItem α)}

theorem simulate_cons_of_stop (hstop : control.stop history.pull = true) :
    simulate control history builder (item :: items) = (history.pull, .error .cancelled) := by
  cases item with
  | error failure =>
      rw [simulate]
      exact if_pos hstop
  | ok instruction =>
      rw [simulate]
      exact if_pos hstop

theorem simulate_cons (hstop : control.stop history.pull = false) :
    simulate control history builder (item :: items) =
      match builder.accept item with
      | .error failure => (history.pull, .error (.failed failure))
      | .ok next => simulate control (reportSimulated control history.pull.handle) next items := by
  have hgoing : ¬ control.stop history.pull = true := by
    rw [hstop]
    exact Bool.false_ne_true
  cases item with
  | error failure =>
      rw [simulate]
      exact if_neg hgoing
  | ok instruction =>
      rw [simulate, if_neg hgoing, Builder.accept]
      rcases builder.handle instruction with ⟨next, found⟩
      cases found <;> rfl

/-- A build that is not stopped before some items are through has either
failed at the first of them that fails, or handled them all. -/
theorem simulate_append (builder : Builder α) (front items : List (BuildItem α))
    (hstop : ∀ count < front.length,
      control.stop (afterItems control count history).pull = false) :
    simulate control history builder (front ++ items) =
      match builder.acceptAll front with
      | .error (count, failure) =>
          ((afterItems control count history).pull, .error (.failed failure))
      | .ok next => simulate control (afterItems control front.length history) next items := by
  induction front generalizing history builder with
  | nil => rfl
  | cons item front ih =>
      have hfirst : control.stop history.pull = false := hstop 0 (Nat.zero_lt_succ _)
      rw [List.cons_append, simulate_cons hfirst, Builder.acceptAll]
      cases builder.accept item with
      | error failure => rfl
      | ok next =>
          have hrest : ∀ count < front.length,
              control.stop (afterItems control count
                (reportSimulated control history.pull.handle)).pull = false := by
            intro count hcount
            exact hstop (count + 1) (Nat.succ_lt_succ hcount)
          simp only [ih next hrest]
          cases next.acceptAll front with
          | error failed => rfl
          | ok last => rfl

end

/-!
## Finishing
-/

def afterLayers (total : Nat) : Nat → Nat → History → History
  | _, 0, history => history
  | done, count + 1, history =>
      afterLayers total (done + 1) count
        (history.report .padding (Progress.fractionOf (done + 1) total))

def afterFinish (count : Nat) (history : History) : History :=
  ((afterLayers count 0 count history).report .statistics 1).report .finalizing 1

theorem counts_afterLayers (total done count : Nat) (history : History) :
    (afterLayers total done count history).pulled = history.pulled := by
  induction count generalizing done history with
  | zero => rfl
  | succ count ih =>
      rw [afterLayers, ih]
      rfl

section

variable {control : Control} {history : History} {builder : Builder α}

theorem handled_padLayers (control : Control) (history : History) (padding : α)
    (total done : Nat) (drafts : List (α × Draft α)) :
    (padLayers control padding total done history drafts).1.handled = history.handled := by
  induction drafts generalizing done history with
  | nil => rfl
  | cons entry rest ih =>
      rcases entry with ⟨z, draft⟩
      rw [padLayers]
      by_cases hstop : control.stop history = true
      · rw [if_pos hstop]
      · rw [if_neg hstop]
        exact ih (history.report .padding (Progress.fractionOf (done + 1) total)) (done + 1)

theorem padLayers_of_quiet (history : History) (padding : α) (total done : Nat)
    (drafts : List (α × Draft α))
    (hquiet : ∀ moment : History, moment.pulled = history.pulled → control.stop moment = false) :
    padLayers control padding total done history drafts =
      (afterLayers total done drafts.length history,
        some (drafts.map fun entry => (entry.1, entry.2.finish padding))) := by
  induction drafts generalizing done history with
  | nil => rfl
  | cons entry rest ih =>
      rcases entry with ⟨z, draft⟩
      have hstop : ¬ control.stop history = true := by
        rw [hquiet history rfl]
        exact Bool.false_ne_true
      rw [padLayers, if_neg hstop]
      have hrest := ih (history.report .padding (Progress.fractionOf (done + 1) total))
        (done + 1) hquiet
      simp only [hrest]
      rfl

theorem finish_of_quiet
    (hquiet : ∀ moment : History, moment.pulled = history.pulled → control.stop moment = false) :
    finish control history builder =
      (afterFinish builder.layerCount history, .completed builder.toModel) := by
  have hcount : builder.print.layers.ascending.length = builder.layerCount :=
    List.length_reverse
  have hlast : control.stop
      ((afterLayers builder.layerCount 0 builder.layerCount history).report .statistics 1) =
        false :=
    hquiet _ (counts_afterLayers _ _ _ _)
  unfold finish
  simp only [padLayers_of_quiet history _ _ _ _ hquiet, hcount, hlast, Bool.false_eq_true, if_false]
  rfl

end

/-!
## Runs
-/

section

variable {control : Control} {settings : BuildSettings α} {items : List (BuildItem α)}

def opening : History := History.start.report .simulating 0

theorem run_eq (control : Control) (settings : BuildSettings α) (items : List (BuildItem α)) :
    run control settings items =
      match simulate control opening (.new settings) items with
      | (history, .error outcome) => (history, outcome)
      | (history, .ok builder) => finish control (history.report .simulating 1) builder := rfl

/-- A build that is never stopped fails at its first item that fails, or
completes with the model of the builder that has accepted them all. -/
theorem run_of_quiet
    (hquiet : ∀ moment : History, moment.pulled ≤ items.length → control.stop moment = false) :
    run control settings items =
      match (Builder.new settings).acceptAll items with
      | .error (count, failure) => ((afterItems control count opening).pull, .failed failure)
      | .ok builder =>
          (afterFinish builder.layerCount
              ((afterItems control items.length opening).report .simulating 1),
            .completed builder.toModel) := by
  have hpulled : ∀ count, (afterItems control count opening).pulled = count := by
    intro count
    rw [(counts_afterItems control count opening).1]
    exact Nat.zero_add count
  have hstop : ∀ count < items.length,
      control.stop (afterItems control count opening).pull = false := by
    intro count hcount
    apply hquiet
    show (afterItems control count opening).pulled + 1 ≤ items.length
    rw [hpulled]
    exact hcount
  have hsimulate := simulate_append (Builder.new settings) items [] hstop
  rw [List.append_nil] at hsimulate
  rw [run_eq, hsimulate]
  cases (Builder.new settings).acceptAll items with
  | error failed => rfl
  | ok builder =>
      simp only [simulate]
      apply finish_of_quiet
      intro moment hmoment
      apply hquiet
      rw [hmoment]
      exact Nat.le_of_eq (hpulled items.length)

end

end Build
end Extrusion
