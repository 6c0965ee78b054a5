import Extrusion.Proofs.Builder.Acceptance
import Extrusion.Proofs.Builder.Descent
import Extrusion.Proofs.Print.Ordering

/-!
# Heights and keys

The layers of a print are found by keys, and descents are judged by comparing the
heights themselves.  The two never disagree: keys stand to each other as the numbers
do that they are made of, so a height without a layer lies strictly above or below the
last one, and the last one has a layer once anything was deposited.
-/

namespace Extrusion

open Scalar LayerStack

variable {α : Type} [Scalar α]

structure KeysCompare (a b : α) : Prop where
  lt_iff : Scalar.order (key a) (key b) = .lt ↔ a < b
  eq_iff : Scalar.order (key a) (key b) = .eq ↔ (a == b) = true
  gt_iff : Scalar.order (key a) (key b) = .gt ↔ b < a

/-- How a print finds a layer for a height and judges the height. -/
structure Print.Finds (print : Print α) (z : α) : Prop where
  found_iff : print.layers.contains z = true ↔
    ∃ entry ∈ print.layers.entries, (z == entry.1) = true
  last : print.layers.entries ≠ [] → print.layers.contains print.descent.lastHeight = true
  apart : print.layers.entries ≠ [] → print.layers.contains z = false →
    z < print.descent.lastHeight ∨ print.descent.lastHeight < z
  again : print.layers.entries ≠ [] → (z == print.descent.lastHeight) = true →
    print.decision z = .ok .existing

theorem keysCompare_of_isNumber [LawfulOrder α] {a b : α} (ha : IsNumber a)
    (hb : IsNumber b) : KeysCompare a b where
  lt_iff := by
    rw [LawfulOrder.lt_iff]
    exact ⟨fun h => ⟨ha, hb, h⟩, fun h => h.2.2⟩
  eq_iff := by
    rw [LawfulOrder.order_eq_iff, LawfulOrder.beq_iff]
    exact ⟨fun h => ⟨ha, hb, h⟩, fun h => h.2.2⟩
  gt_iff := by
    rw [LawfulOrder.lt_iff, ← LawfulOrder.order_swap (key b) (key a), Ordering.swap_eq_gt]
    exact ⟨fun h => ⟨hb, ha, h⟩, fun h => h.2.2⟩

/-!
# Prints
-/

namespace Print

variable {print : Print α} {z : α}

theorem decision_of_contains (h : print.layers.contains z = true) :
    print.decision z = .ok .existing := by
  unfold decision
  rw [h]
  rfl

variable [LawfulOrder α]

theorem contains_iff_beq (h : print.layers.WellFormed) (hz : IsNumber z) :
    print.layers.contains z = true ↔ ∃ entry ∈ print.layers.entries, (z == entry.1) = true := by
  rw [contains_iff]
  constructor
  · rintro ⟨entry, hmem, heq⟩
    refine ⟨entry, hmem, LawfulOrder.beq_iff.mpr ⟨hz, h.isNumber entry hmem, ?_⟩⟩
    exact heq.symm.trans (h.isKey entry hmem).symm
  · rintro ⟨entry, hmem, heq⟩
    exact ⟨entry, hmem, (h.isKey entry hmem).symm.trans (key_eq_of_beq heq).symm⟩

theorem Consistent.contains_of_beq_last (h : print.Consistent)
    (hne : print.layers.entries ≠ []) (hlast : (z == print.descent.lastHeight) = true) :
    print.layers.contains z = true := by
  obtain ⟨_, entry, hmem, hkey⟩ := key_last_mem h hne
  exact contains_iff.mpr ⟨entry, hmem, hkey.trans (key_eq_of_beq hlast).symm⟩

theorem Consistent.finds (h : print.Consistent) (hz : IsNumber z) : print.Finds z where
  found_iff := contains_iff_beq h.layers hz
  last := by
    intro hne
    exact h.contains_of_beq_last hne (key_last_mem h hne).1
  apart := by
    intro hne hnew
    rcases lt_or_beq_or_gt hz (key_last_mem h hne).1 with hbelow | hlast | habove
    · exact Or.inl hbelow
    · rw [h.contains_of_beq_last hne hlast] at hnew
      cases hnew
    · exact Or.inr habove
  again := by
    intro hne hlast
    exact decision_of_contains (h.contains_of_beq_last hne hlast)

end Print

/-!
# Runs
-/

namespace Builder

variable [LawfulOrder α] {builder : Builder α} {instructions : List (Instruction α)}
  {depositions : List (Deposition α)}

theorem contains_of_accepted {instruction : Instruction α} {corners : List (Vec2 α)}
    (h : builder.print.Consistent) (haccepted : (builder.handle instruction).2 = none)
    (hdeposits : builder.DepositsAlong instruction corners) :
    (builder.handle instruction).1.print.descent.lastHeight =
        (Deposition.along corners (builder.stateAfter instruction)).height ∧
      (builder.handle instruction).1.print.layers.entries ≠ [] := by
  have hz := Deposition.isNumber_of_deposits hdeposits
  have hstep := Print.step_of_add h hz (add_of_handle hdeposits haccepted)
  obtain ⟨entry, hmem, _⟩ := contains_iff.mp (hstep.contains h hz)
  exact ⟨hstep.lastHeight, List.ne_nil_of_mem hmem⟩

/-- The last height is that of the latest accepted deposition, whatever else was tried
since. -/
theorem last_of_accepts (haccepts : Accepts builder instructions depositions)
    (h : builder.print.Consistent) :
    (depositions = [] ∧ (builder.replay instructions).print = builder.print) ∨
      ∃ deposition, depositions.getLast? = some deposition ∧
        (builder.replay instructions).print.descent.lastHeight = deposition.height ∧
        (builder.replay instructions).print.layers.entries ≠ [] := by
  induction haccepts with
  | nil builder => exact Or.inl ⟨rfl, rfl⟩
  | @deposit builder instruction rest corners depositions accepted here later ih =>
      rw [replay_cons]
      rcases ih (consistent_handle h instruction) with ⟨rfl, hsame⟩ | ⟨deposition, hlast, hlater⟩
      · rw [hsame]
        exact Or.inr ⟨_, rfl, contains_of_accepted h accepted here⟩
      · refine Or.inr ⟨deposition, ?_, hlater⟩
        rw [List.getLast?_cons, hlast]
        rfl
  | @pass builder instruction rest depositions idle later ih =>
      have hsame : (builder.handle instruction).1.print = builder.print := by
        rcases idle with hfailed | hidle
        · exact print_handle_of_failed hfailed
        · refine print_handle_of_not_deposits fun corners hdeposits => ?_
          exact hidle (Deposition.isDeposition_of_deposits hdeposits)
      rw [replay_cons, ← hsame]
      exact ih (consistent_handle h instruction)

end Builder

structure HeightRule : Prop where
  keys : ∀ a b : Float, IsNumber a → IsNumber b → KeysCompare a b
  reached : ∀ settings instructions z, IsNumber z →
    ((Builder.new settings).replay instructions).print.Finds (z : Float)
  deposited : ∀ settings instructions depositions (deposition : Deposition Float),
    (Builder.new settings).Accepts instructions (depositions ++ [deposition]) →
      ((Builder.new settings).replay instructions).print.descent.lastHeight =
          deposition.height ∧
        ∀ z, (z == deposition.height) = true →
          ((Builder.new settings).replay instructions).print.layers.contains z = true

theorem heightRule : HeightRule where
  keys a b ha hb := keysCompare_of_isNumber ha hb
  reached := by
    intro settings instructions z hz
    exact (Builder.consistent_replay_new settings instructions).finds hz
  deposited := by
    intro settings instructions depositions deposition haccepts
    have hconsistent := Builder.consistent_replay_new settings instructions
    rcases Builder.last_of_accepts haccepts Print.consistent_empty with
      ⟨hnone, _⟩ | ⟨latest, hlatest, hlast, hne⟩
    · exact absurd hnone (List.concat_ne_nil _ _)
    · rw [List.getLast?_concat] at hlatest
      cases hlatest
      refine ⟨hlast, ?_⟩
      intro z hz
      rw [← hlast] at hz
      exact hconsistent.contains_of_beq_last hne hz

/-- The two zeros are one height, and the infinities are the lowest and the highest. -/
example : Scalar.order (key (-0 : Float)) (key 0) = .eq ∧
    Scalar.order (key (-Numeric.Double.infinity false)) (key (-0 : Float)) = .lt ∧
    Scalar.order (key (Numeric.Double.infinity false)) (key (0 : Float)) = .gt := by
  decide +kernel

end Extrusion
