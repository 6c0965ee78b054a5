import Extrusion.Proofs.Builder.Step

/-!
# Descents to new heights

A deposition at a height that has no layer is judged by the height of the
latest deposition, which need not be the highest one: the nozzle may have gone
back to a lower layer in between.  A layer can therefore be started between two
others, but never below the layer that was deposited on last.
-/

namespace Extrusion
namespace Print

open Scalar LayerStack

variable {α : Type} [Scalar α] {print next : Print α} {deposition : Deposition α}

theorem Step.lastHeight (h : Step print deposition next) :
    next.descent.lastHeight = deposition.height := by
  cases h <;> rfl

theorem Step.contains [LawfulOrder α] (h : Step print deposition next)
    (hprint : print.Consistent) (hz : IsNumber deposition.height) :
    next.layers.contains deposition.height = true := by
  cases h with
  | again known => exact contains_update hprint.layers hz (taking deposition)
  | above new rising => exact contains_update hprint.layers hz (taking deposition)
  | below draft single falling unprimed =>
      exact contains_update wellFormed_empty hz (taking deposition)

theorem Step.rising (h : Step print deposition next)
    (hnew : print.layers.contains deposition.height = false)
    (hpriming : next.priming = print.priming) :
    print.layers.entries = [] ∨ print.descent.lastHeight < deposition.height := by
  cases h with
  | again known =>
      rw [hnew] at known
      cases known
  | above new rising => exact rising
  | below draft single falling unprimed =>
      rw [unprimed] at hpriming
      cases hpriming

theorem lt_of_rising [LawfulOrder α] (h : print.Consistent) {z : α}
    (hrising : print.layers.entries = [] ∨ print.descent.lastHeight < z)
    (htop : ∀ entry ∈ print.layers.entries, ¬ print.descent.lastHeight < entry.1) :
    ∀ entry ∈ print.layers.entries, entry.1 < z := by
  intro entry hmem
  have hne : print.layers.entries ≠ [] := List.ne_nil_of_mem hmem
  have hlt := hrising.resolve_left hne
  have hlast := (key_last_mem h hne).1
  rcases lt_or_beq_or_gt (h.layers.isNumber entry hmem) hlast with hbelow | heq | habove
  · exact lt_trans hbelow hlt
  · rw [← h.layers.isKey entry hmem, key_eq_of_beq heq, key_lt_iff]
    exact hlt
  · exact absurd habove (htop entry hmem)

theorem add_of_rising [LawfulOrder α] (h : print.Consistent) (hz : IsNumber deposition.height)
    (hrising : print.layers.entries = [] ∨ print.descent.lastHeight < deposition.height) :
    ∃ next, print.add deposition = .ok next ∧ next.priming = print.priming := by
  cases hadd : print.add deposition with
  | error error =>
      rcases (add_eq_error_iff print deposition error).mp hadd with ⟨_, hlt, hreason⟩
      have hempty := hrising.resolve_right (lt_asymm hlt)
      rcases hreason with ⟨hprimed, _⟩ | ⟨_, hmany, _⟩
      · rw [h.primed] at hprimed
        exact absurd hempty (h.nonempty hprimed)
      · simp [size, hempty] at hmany
  | ok next =>
      refine ⟨next, rfl, ?_⟩
      cases step_of_add h hz hadd with
      | again known => rfl
      | above new rising => rfl
      | below draft single falling unprimed =>
          rcases hrising with hempty | hlt
          · rw [hempty] at single
            cases single
          · exact absurd hlt (lt_asymm falling)

theorem add_of_falling_primed (h : print.Consistent)
    (hnew : print.layers.contains deposition.height = false)
    (hlt : deposition.height < print.descent.lastHeight)
    (hpriming : print.priming.isSome = true) :
    print.add deposition = .error (.afterPriming deposition.height print.descent.lastHeight) := by
  refine (add_eq_error_iff print deposition _).mpr ⟨hnew, hlt, Or.inl ⟨?_, rfl⟩⟩
  rw [h.primed]
  exact hpriming

theorem add_of_falling_late (h : print.Consistent)
    (hnew : print.layers.contains deposition.height = false)
    (hlt : deposition.height < print.descent.lastHeight)
    (hpriming : print.priming = none) (hmany : 1 < print.layers.size) :
    print.add deposition =
      .error (.late deposition.height print.descent.lastHeight print.layers.size) := by
  refine (add_eq_error_iff print deposition _).mpr ⟨hnew, hlt, Or.inr ⟨?_, hmany, rfl⟩⟩
  rw [h.primed, hpriming]
  rfl

end Print

namespace Builder

open Scalar LayerStack

variable {α : Type} [Scalar α]

def DepositsNew (builder : Builder α) (instruction : Instruction α) : Prop :=
  (∃ corners, builder.DepositsAlong instruction corners) ∧
    builder.print.layers.contains (builder.heightAfter instruction) = false

/-- How a builder judges an instruction.  An accepted deposition sets the last
height; anything else leaves the print as it is.  A new height is compared with
the last one. -/
structure DescentRule (builder : Builder α) (instruction : Instruction α) : Prop where
  idle : (∀ corners, ¬ builder.DepositsAlong instruction corners) →
    (builder.handle instruction).1.print = builder.print
  refused : (builder.handle instruction).2 ≠ none →
    (builder.handle instruction).1.print = builder.print
  accepted : (∃ corners, builder.DepositsAlong instruction corners) →
    (builder.handle instruction).2 = none →
      (builder.handle instruction).1.print.descent.lastHeight = builder.heightAfter instruction ∧
      (builder.handle instruction).1.print.layers.contains (builder.heightAfter instruction) = true
  /-- A layer that is started without a demotion is above the layer of the last
  height, and above all layers where none is above that one. -/
  started : builder.DepositsNew instruction → (builder.handle instruction).2 = none →
    (builder.handle instruction).1.print.priming = builder.print.priming →
      (builder.print.layers.entries = [] ∨
        builder.print.descent.lastHeight < builder.heightAfter instruction ∧
          ∃ entry ∈ builder.print.layers.entries,
            (entry.1 == builder.print.descent.lastHeight) = true) ∧
      ((∀ entry ∈ builder.print.layers.entries, ¬ builder.print.descent.lastHeight < entry.1) →
        ∀ entry ∈ builder.print.layers.entries, entry.1 < builder.heightAfter instruction)
  rising : builder.DepositsNew instruction →
    (builder.print.layers.entries = [] ∨
      builder.print.descent.lastHeight < builder.heightAfter instruction) →
      (builder.handle instruction).2 = none ∧
      (builder.handle instruction).1.print.priming = builder.print.priming
  afterPriming : builder.DepositsNew instruction →
    builder.heightAfter instruction < builder.print.descent.lastHeight →
    builder.print.priming ≠ none →
      (builder.handle instruction).2 = some (.descent
        (.afterPriming (builder.heightAfter instruction) builder.print.descent.lastHeight))
  late : builder.DepositsNew instruction →
    builder.heightAfter instruction < builder.print.descent.lastHeight →
    builder.print.priming = none → 1 < builder.print.layers.size →
      (builder.handle instruction).2 = some (.descent
        (.late (builder.heightAfter instruction) builder.print.descent.lastHeight
          builder.print.layers.size))

section

variable [LawfulOrder α] {builder : Builder α} {instruction : Instruction α}

theorem step_of_handle {corners : List (Vec2 α)} (h : builder.print.Consistent)
    (hdeposits : builder.DepositsAlong instruction corners)
    (hok : (builder.handle instruction).2 = none) :
    Print.Step builder.print (.along corners (builder.stateAfter instruction))
      (builder.handle instruction).1.print :=
  Print.step_of_add h (Deposition.isNumber_of_deposits hdeposits) (add_of_handle hdeposits hok)

theorem descentRule_of_consistent (h : builder.print.Consistent) :
    DescentRule builder instruction where
  idle := print_handle_of_not_deposits
  refused := print_handle_of_failed
  accepted := by
    rintro ⟨corners, hdeposits⟩ hok
    have hstep := step_of_handle h hdeposits hok
    exact ⟨hstep.lastHeight, hstep.contains h (Deposition.isNumber_of_deposits hdeposits)⟩
  started := by
    rintro ⟨⟨corners, hdeposits⟩, hnew⟩ hok hpriming
    have hrising := (step_of_handle h hdeposits hok).rising hnew hpriming
    refine ⟨?_, Print.lt_of_rising h hrising⟩
    by_cases hempty : builder.print.layers.entries = []
    · exact Or.inl hempty
    · exact Or.inr ⟨hrising.resolve_left hempty, h.last hempty⟩
  rising := by
    rintro ⟨⟨corners, hdeposits⟩, _⟩ hrising
    rcases Print.add_of_rising h (Deposition.isNumber_of_deposits hdeposits) hrising with
      ⟨print, hadd, hpriming⟩
    rcases handle_of_add_ok hdeposits hadd with ⟨hok, hprint⟩
    exact ⟨hok, (congrArg Print.priming hprint).trans hpriming⟩
  afterPriming := by
    rintro ⟨⟨corners, hdeposits⟩, hnew⟩ hlt hpriming
    have hprimed := Option.isSome_iff_ne_none.mpr hpriming
    exact handle_of_add_error hdeposits (Print.add_of_falling_primed h hnew hlt hprimed)
  late := by
    rintro ⟨⟨corners, hdeposits⟩, hnew⟩ hlt hpriming hmany
    exact handle_of_add_error hdeposits (Print.add_of_falling_late h hnew hlt hpriming hmany)

end

theorem descentRule_replay_new (settings : BuildSettings Float)
    (instructions : List (Instruction Float)) (instruction : Instruction Float) :
    DescentRule ((Builder.new settings).replay instructions) instruction :=
  descentRule_of_consistent (consistent_replay_new settings instructions)

/-- Two layers, the second one above the first, and then the first one again,
before the nozzle rises half of the way. -/
def revisiting : List (Instruction Float) :=
  [.straight 1 none (some 2) none, .straight 2 (some 10) none (some 1),
    .straight 3 none (some 4) none, .straight 4 (some 0) none (some 2),
    .straight 5 none (some 2) none, .straight 6 (some 10) none (some 3),
    .straight 7 none (some 3) none]

theorem revisiting_starts_layer_between :
    ∃ builder instruction, builder = (Builder.new ⟨0.4, 0.05, true⟩).replay revisiting ∧
      instruction = Instruction.straight 8 (some 0) none (some 4) ∧
      builder.DepositsNew instruction ∧ builder.print.layers.size = 2 ∧
      (builder.handle instruction).2 = none ∧
      (builder.handle instruction).1.print.priming = builder.print.priming ∧
      (builder.handle instruction).1.print.layers.contains
        (builder.heightAfter instruction) = true ∧
      ¬ ∀ entry ∈ builder.print.layers.entries, entry.1 < builder.heightAfter instruction := by
  refine ⟨_, _, rfl, rfl, ⟨⟨_, .straight _ ?_ ?_ (Or.inl (by simp))⟩, ?_⟩, ?_, ?_, ?_, ?_, ?_⟩
  · decide +kernel
  · decide +kernel
  · decide +kernel
  · decide +kernel
  · exact Option.isNone_iff_eq_none.mp (by decide +kernel)
  · have hbefore : ((Builder.new ⟨0.4, 0.05, true⟩).replay revisiting).print.priming = none :=
      Option.isNone_iff_eq_none.mp (by decide +kernel)
    rw [hbefore]
    exact Option.isNone_iff_eq_none.mp (by decide +kernel)
  · decide +kernel
  · decide +kernel

end Builder
end Extrusion
