import Extrusion.Proofs.Build.Step

/-!
# Stopping a build

When a build is stopped, and what has happened by then.  A flag that goes up as
an item is pulled ends the build before that item is looked at; one that goes
up later still ends it as long as the model is not there yet.
-/

namespace Extrusion

namespace Control

def unstopped (expected : Option Nat) : Control :=
  ⟨expected, fun _ => false⟩

def stopped (expected : Option Nat) : Control :=
  ⟨expected, fun _ => true⟩

/-- The flag goes up as the item with a number is pulled. -/
def stoppedAt (expected : Option Nat) (n : Nat) : Control :=
  ⟨expected, fun moment => n ≤ moment.pulled⟩

/-- The flag goes up after so many instructions have been handled, and not
later than the statistics are reported. -/
structure StoppedAfter (control : Control) (count : Nat) : Prop where
  down : ∀ moment : History, moment.handled < count → control.stop moment = false
  up : ∀ moment : History, moment.handled = count → ⟨.statistics, 1⟩ ∈ moment.reports →
    control.stop moment = true

end Control

namespace Build

variable {α : Type} [Scalar α]

section

variable {settings : BuildSettings α} {expected : Option Nat} {items : List (BuildItem α)} {n : Nat}

theorem run_of_simulate_error {control : Control} {history : History} {outcome : Outcome α}
    (h : simulate control opening (.new settings) items = (history, .error outcome)) :
    run control settings items = (history, outcome) := by
  rw [run_eq, h]

theorem counts_opening (control : Control) (count : Nat) :
    (afterItems control count opening).pulled = count ∧
      (afterItems control count opening).handled = count := by
  rcases counts_afterItems control count opening with ⟨hpulled, hhandled⟩
  constructor
  · rw [hpulled]
    exact Nat.zero_add count
  · rw [hhandled]
    exact Nat.zero_add count

theorem stop_afterItems_of_lt {count : Nat} (h : count + 1 < n) :
    (Control.stoppedAt expected n).stop
      (afterItems (Control.stoppedAt expected n) count opening).pull = false := by
  have hpulled := (counts_opening (Control.stoppedAt expected n) count).1
  show decide (n ≤ (afterItems _ count opening).pulled + 1) = false
  rw [hpulled, decide_eq_false_iff_not]
  exact Nat.not_le_of_lt h

theorem stop_afterItems_of_eq {count : Nat} (h : count + 1 = n) :
    (Control.stoppedAt expected n).stop
      (afterItems (Control.stoppedAt expected n) count opening).pull = true := by
  have hpulled := (counts_opening (Control.stoppedAt expected n) count).1
  show decide (n ≤ (afterItems _ count opening).pulled + 1) = true
  rw [hpulled, decide_eq_true_iff]
  exact Nat.le_of_eq h.symm

theorem simulate_stoppedAt (settings : BuildSettings α) (expected : Option Nat)
    (items : List (BuildItem α)) (n : Nat) :
    simulate (Control.stoppedAt expected n) opening (.new settings) items =
      match (Builder.new settings).acceptAll (items.take (n - 1)) with
      | .error (count, failure) =>
          ((afterItems (Control.stoppedAt expected n) count opening).pull,
            .error (.failed failure))
      | .ok builder =>
          simulate (Control.stoppedAt expected n)
            (afterItems (Control.stoppedAt expected n) (items.take (n - 1)).length opening)
            builder (items.drop (n - 1)) := by
  have hstop : ∀ count < (items.take (n - 1)).length,
      (Control.stoppedAt expected n).stop
        (afterItems (Control.stoppedAt expected n) count opening).pull = false := by
    intro count hcount
    rw [List.length_take] at hcount
    apply stop_afterItems_of_lt
    omega
  have hsplit := simulate_append (Builder.new settings) (items.take (n - 1))
    (items.drop (n - 1)) hstop
  rwa [List.take_append_drop] at hsplit

theorem run_stoppedAt_of_error {count : Nat} {failure : Failure α}
    (h : (Builder.new settings).acceptAll (items.take (n - 1)) = .error (count, failure)) :
    run (Control.stoppedAt expected n) settings items =
      ((afterItems (Control.stoppedAt expected n) count opening).pull, .failed failure) := by
  apply run_of_simulate_error
  rw [simulate_stoppedAt, h]

theorem run_stoppedAt_of_ok {builder : Builder α} (hpos : 0 < n) (hlength : n ≤ items.length)
    (h : (Builder.new settings).acceptAll (items.take (n - 1)) = .ok builder) :
    run (Control.stoppedAt expected n) settings items =
      ((afterItems (Control.stoppedAt expected n) (n - 1) opening).pull, .cancelled) := by
  have hfront : (items.take (n - 1)).length = n - 1 := by
    rw [List.length_take]
    omega
  apply run_of_simulate_error
  rw [simulate_stoppedAt, h, hfront]
  cases hrest : items.drop (n - 1) with
  | nil =>
      have hnone := List.drop_eq_nil_iff.mp hrest
      omega
  | cons item rest => exact simulate_cons_of_stop (stop_afterItems_of_eq (by omega))

theorem run_stoppedAt_of_short (hlength : items.length < n) :
    run (Control.stoppedAt expected n) settings items =
      run (Control.unstopped expected) settings items := by
  have hquiet : ∀ moment : History, moment.pulled ≤ items.length →
      (Control.stoppedAt expected n).stop moment = false := by
    intro moment hmoment
    exact decide_eq_false (Nat.not_le_of_lt (Nat.lt_of_le_of_lt hmoment hlength))
  have hnever : ∀ moment : History, moment.pulled ≤ items.length →
      (Control.unstopped expected).stop moment = false := by
    intro moment _
    rfl
  have hsame : ∀ count,
      afterItems (Control.stoppedAt expected n) count opening =
        afterItems (Control.unstopped expected) count opening := by
    intro count
    have hexpected : (Control.stoppedAt expected n).expected =
        (Control.unstopped expected).expected := rfl
    exact afterItems_congr hexpected count opening
  rw [run_of_quiet hquiet, run_of_quiet hnever]
  cases (Builder.new settings).acceptAll items with
  | error failed => simp only [hsame]
  | ok builder => simp only [hsame]

theorem run_stopped :
    (run (Control.stopped expected) settings items).2 = .cancelled ∧
      (run (Control.stopped expected) settings items).1.handled = 0 := by
  cases items with
  | nil => exact ⟨rfl, rfl⟩
  | cons item rest =>
      have hfirst : simulate (Control.stopped expected) opening (.new settings) (item :: rest) =
          (opening.pull, .error .cancelled) := simulate_cons_of_stop rfl
      rw [run_of_simulate_error hfirst]
      exact ⟨rfl, rfl⟩

theorem finish_of_stop {control : Control} {history : History} {builder : Builder α}
    (hstop : ∀ moment : History, moment.handled = history.handled →
      ⟨.statistics, 1⟩ ∈ moment.reports → control.stop moment = true) :
    (finish control history builder).2 = .cancelled := by
  have hhandled := handled_padLayers control history builder.padding
    builder.print.layers.ascending.length 0 builder.print.layers.ascending
  cases hpadded : padLayers control builder.padding builder.print.layers.ascending.length 0
      history builder.print.layers.ascending with
  | mk moment layers =>
      rw [hpadded] at hhandled
      simp only [finish, hpadded]
      cases layers with
      | none => rfl
      | some layers =>
          have hlast : control.stop (moment.report .statistics 1) = true :=
            hstop _ hhandled List.mem_cons_self
          simp only [hlast, if_true]

theorem run_stoppedAfter {control : Control} {builder : Builder α}
    (haccept : (Builder.new settings).acceptAll items = .ok builder)
    (hcontrol : control.StoppedAfter items.length) :
    (run control settings items).2 = .cancelled := by
  have hdown : ∀ count < items.length,
      control.stop (afterItems control count opening).pull = false := by
    intro count hcount
    apply hcontrol.down
    show (afterItems control count opening).handled < items.length
    rw [(counts_opening control count).2]
    exact hcount
  have hsimulate := simulate_append (Builder.new settings) items [] hdown
  rw [List.append_nil, haccept] at hsimulate
  rw [run_eq, hsimulate]
  simp only [simulate]
  apply finish_of_stop
  intro moment hmoment hreported
  apply hcontrol.up moment _ hreported
  rw [hmoment]
  exact (counts_opening control items.length).2

end

structure StoppingRule (settings : BuildSettings α) (expected : Option Nat)
    (items : List (BuildItem α)) : Prop where
  failed : ∀ n count failure,
    (Builder.new settings).acceptAll (items.take (n - 1)) = .error (count, failure) →
      (run (.stoppedAt expected n) settings items).2 = .failed failure ∧
      (run (.stoppedAt expected n) settings items).1.pulled = count + 1 ∧
      (run (.stoppedAt expected n) settings items).1.handled = count
  cancelled : ∀ n builder, 0 < n → n ≤ items.length →
    (Builder.new settings).acceptAll (items.take (n - 1)) = .ok builder →
      (run (.stoppedAt expected n) settings items).2 = .cancelled ∧
      (run (.stoppedAt expected n) settings items).1.pulled = n ∧
      (run (.stoppedAt expected n) settings items).1.handled = n - 1
  short : ∀ n, items.length < n →
    run (.stoppedAt expected n) settings items = run (.unstopped expected) settings items
  beforehand :
    (run (.stopped expected) settings items).2 = .cancelled ∧
      (run (.stopped expected) settings items).1.handled = 0
  finishing : ∀ control builder, (Builder.new settings).acceptAll items = .ok builder →
    control.StoppedAfter items.length → (run control settings items).2 = .cancelled

theorem stoppingRule (settings : BuildSettings α) (expected : Option Nat)
    (items : List (BuildItem α)) : StoppingRule settings expected items where
  failed := by
    intro n count failure h
    rcases counts_opening (Control.stoppedAt expected n) count with ⟨hpulled, hhandled⟩
    rw [run_stoppedAt_of_error h]
    exact ⟨rfl, congrArg (· + 1) hpulled, hhandled⟩
  cancelled := by
    intro n builder hpos hlength h
    rcases counts_opening (Control.stoppedAt expected n) (n - 1) with ⟨hpulled, hhandled⟩
    rw [run_stoppedAt_of_ok hpos hlength h]
    refine ⟨rfl, ?_, hhandled⟩
    show (afterItems _ (n - 1) opening).pulled + 1 = n
    rw [hpulled]
    exact Nat.sub_add_cancel hpos
  short := by
    intro n hlength
    exact run_stoppedAt_of_short hlength
  beforehand := run_stopped
  finishing := by
    intro control builder haccept hcontrol
    exact run_stoppedAfter haccept hcontrol

end Build
end Extrusion
