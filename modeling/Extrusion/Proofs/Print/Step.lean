import Extrusion.Print
import Extrusion.Proofs.Layer.Descent
import Extrusion.Proofs.Layer.Stack

/-!
# Adding a deposition

A print is consistent where its last height is the height of a layer and its
priming layer is there exactly after a demotion.  Adding a deposition to a
consistent print goes back to a layer, or starts one above the last height, or
makes the only layer the priming layer and starts one below it.
-/

namespace Extrusion
namespace Print

open Scalar LayerStack

variable {α : Type} [Scalar α]

def taking (deposition : Deposition α) (draft : Draft α) : Draft α :=
  draft.deposit deposition.corners deposition.temperature deposition.feedrate

structure Consistent (print : Print α) : Prop where
  layers : print.layers.WellFormed
  primed : print.descent.primed = print.priming.isSome
  last : print.layers.entries ≠ [] →
    ∃ entry ∈ print.layers.entries, (entry.1 == print.descent.lastHeight) = true
  nonempty : print.priming.isSome = true → print.layers.entries ≠ []

inductive Step (print : Print α) (deposition : Deposition α) : Print α → Prop where
  | again (known : print.layers.contains deposition.height = true) :
      Step print deposition
        { layers := print.layers.update deposition.height (taking deposition)
          priming := print.priming
          descent := ⟨deposition.height, print.descent.primed⟩ }
  | above (new : print.layers.contains deposition.height = false)
      (rising : print.layers.entries = [] ∨ print.descent.lastHeight < deposition.height) :
      Step print deposition
        { layers := print.layers.update deposition.height (taking deposition)
          priming := print.priming
          descent := ⟨deposition.height, print.descent.primed⟩ }
  | below (draft : Draft α)
      (single : print.layers.entries = [(key print.descent.lastHeight, draft)])
      (falling : deposition.height < print.descent.lastHeight)
      (unprimed : print.priming = none) :
      Step print deposition
        { layers := ⟨[(key deposition.height, taking deposition .empty)]⟩
          priming := some (print.descent.lastHeight, draft)
          descent := ⟨deposition.height, true⟩ }

theorem consistent_empty : (Print.empty : Print α).Consistent where
  layers := wellFormed_empty
  primed := rfl
  last := by simp [empty, LayerStack.empty]
  nonempty := by simp [empty]

/-!
# Steps
-/

theorem demote_single {print : Print α} {height : α} {draft : Draft α}
    [LawfulOrder α] (h : print.layers.entries = [(key height, draft)]) :
    print.demote height =
      { layers := .empty, priming := some (height, draft), descent := print.descent } := by
  have hlayers : print.layers = ⟨[(key height, draft)]⟩ := by
    cases hstack : print.layers with
    | mk entries =>
        rw [hstack] at h
        exact congrArg LayerStack.mk h
  unfold demote
  rw [hlayers, take?_singleton]

theorem add_eq (print : Print α) (deposition : Deposition α) :
    print.add deposition =
      match print.descent.resolve deposition.height
        (print.layers.contains deposition.height) print.layers.size with
      | .error error => .error error
      | .ok (.demoting height, descent) =>
          .ok
            { layers := (print.demote height).layers.update deposition.height
                (taking deposition)
              priming := (print.demote height).priming
              descent }
      | .ok (_, descent) =>
          .ok
            { layers := print.layers.update deposition.height (taking deposition)
              priming := print.priming
              descent } := by
  unfold add
  cases hresolve : print.descent.resolve deposition.height
      (print.layers.contains deposition.height) print.layers.size with
  | error error =>
      simp only [hresolve]
      rfl
  | ok answer =>
      rcases answer with ⟨source, descent⟩
      simp only [hresolve]
      cases source <;> rfl

theorem add_eq_error_iff (print : Print α) (deposition : Deposition α) (error : DescentError α) :
    print.add deposition = .error error ↔
      print.layers.contains deposition.height = false ∧
      deposition.height < print.descent.lastHeight ∧
      (print.descent.primed = true ∧
          error = .afterPriming deposition.height print.descent.lastHeight ∨
        print.descent.primed = false ∧ 1 < print.layers.size ∧
          error = .late deposition.height print.descent.lastHeight print.layers.size) := by
  rw [add_eq, Descent.resolve_eq]
  cases hknown : print.layers.contains deposition.height with
  | true => simp
  | false =>
      by_cases hlt : deposition.height < print.descent.lastHeight
      · by_cases hprimed : print.descent.primed = true
        · simp [hlt, hprimed, eq_comm]
        · by_cases hmany : 1 < print.layers.size
          · simp [hlt, hprimed, hmany, eq_comm]
          · by_cases hnone : print.layers.size = 0
            · simp [hlt, hprimed, hnone]
            · simp [hlt, hprimed, hmany, hnone]
      · simp [hlt]

theorem key_last_mem [LawfulOrder α] {print : Print α} (h : print.Consistent)
    (hne : print.layers.entries ≠ []) :
    IsNumber print.descent.lastHeight ∧
      ∃ entry ∈ print.layers.entries, entry.1 = key print.descent.lastHeight := by
  rcases h.last hne with ⟨entry, hmem, hbeq⟩
  refine ⟨isNumber_right_of_beq hbeq, entry, hmem, ?_⟩
  rw [← h.layers.isKey entry hmem]
  exact key_eq_of_beq hbeq

theorem single_of_size [LawfulOrder α] {print : Print α} (h : print.Consistent)
    (hne : print.layers.size ≠ 0) (hle : ¬ 1 < print.layers.size) :
    ∃ draft, print.layers.entries = [(key print.descent.lastHeight, draft)] := by
  have hsize : print.layers.entries.length = 1 := by
    show print.layers.size = 1
    omega
  rcases List.length_eq_one_iff.mp hsize with ⟨only, honly⟩
  rcases key_last_mem h (by simp [honly]) with ⟨_, entry, hmem, hkey⟩
  rw [honly, List.mem_singleton] at hmem
  subst entry
  rcases only with ⟨height, draft⟩
  cases hkey
  exact ⟨draft, honly⟩

theorem rising_of_not_lt [LawfulOrder α] {print : Print α} {z : α} (h : print.Consistent)
    (hz : IsNumber z) (hnew : print.layers.contains z = false)
    (hlt : ¬ z < print.descent.lastHeight) :
    print.layers.entries = [] ∨ print.descent.lastHeight < z := by
  by_cases hempty : print.layers.entries = []
  · exact Or.inl hempty
  · rcases key_last_mem h hempty with ⟨hlast, entry, hmem, hkey⟩
    rcases lt_or_beq_or_gt hz hlast with hbelow | heq | habove
    · exact absurd hbelow hlt
    · have hknown : print.layers.contains z = true :=
        contains_iff.mpr ⟨entry, hmem, hkey.trans (key_eq_of_beq heq).symm⟩
      rw [hnew] at hknown
      cases hknown
    · exact Or.inr habove

theorem step_of_add [LawfulOrder α] {print next : Print α} {deposition : Deposition α}
    (h : print.Consistent) (hz : IsNumber deposition.height)
    (hadd : print.add deposition = .ok next) :
    Step print deposition next := by
  rw [add_eq, Descent.resolve_eq] at hadd
  cases hknown : print.layers.contains deposition.height with
  | true =>
      rw [hknown, if_pos rfl] at hadd
      cases hadd
      exact .again hknown
  | false =>
      rw [hknown, if_neg (by simp)] at hadd
      by_cases hlt : deposition.height < print.descent.lastHeight
      · rw [if_pos hlt] at hadd
        by_cases hprimed : print.descent.primed = true
        · rw [if_pos hprimed] at hadd
          cases hadd
        · rw [if_neg hprimed] at hadd
          have hpriming : print.priming = none := by
            rw [h.primed] at hprimed
            simpa using hprimed
          by_cases hmany : 1 < print.layers.size
          · rw [if_pos hmany] at hadd
            cases hadd
          · rw [if_neg hmany] at hadd
            by_cases hnone : print.layers.size = 0
            · rw [if_pos hnone] at hadd
              have hstep : Step print deposition _ :=
                .above hknown (Or.inl (List.eq_nil_of_length_eq_zero hnone))
              have hunprimed : print.descent.primed = false := by simpa using hprimed
              rw [hunprimed] at hstep
              cases hadd
              exact hstep
            · rw [if_neg hnone] at hadd
              rcases single_of_size h hnone hmany with ⟨draft, hsingle⟩
              simp only [demote_single hsingle, update_empty] at hadd
              cases hadd
              exact .below draft hsingle hlt hpriming
      · rw [if_neg hlt] at hadd
        cases hadd
        exact .above hknown (rising_of_not_lt h hz hknown hlt)

/-!
# What a step keeps
-/

theorem Consistent.step [LawfulOrder α] {print next : Print α} {deposition : Deposition α}
    (h : print.Consistent) (hz : IsNumber deposition.height)
    (hstep : Step print deposition next) : next.Consistent := by
  have hchanged := changed_update h.layers hz (taking deposition)
  have hlast : ∃ entry ∈ (print.layers.update deposition.height (taking deposition)).entries,
      (entry.1 == deposition.height) = true := by
    rcases hchanged.mem_self with ⟨draft, hmem⟩
    exact ⟨_, hmem, key_beq hz⟩
  have hne : (print.layers.update deposition.height (taking deposition)).entries ≠ [] := by
    rcases hlast with ⟨entry, hmem, _⟩
    exact List.ne_nil_of_mem hmem
  cases hstep with
  | again known =>
      exact ⟨wellFormed_update h.layers hz _, h.primed, fun _ => hlast, fun _ => hne⟩
  | above new rising =>
      exact ⟨wellFormed_update h.layers hz _, h.primed, fun _ => hlast, fun _ => hne⟩
  | below draft single falling unprimed =>
      refine ⟨?_, rfl, ?_, by simp⟩
      · exact wellFormed_update wellFormed_empty hz (taking deposition)
      · intro _
        exact ⟨_, List.mem_singleton.mpr rfl, key_beq hz⟩

theorem Step.priming {print next : Print α} {deposition : Deposition α}
    (hstep : Step print deposition next) {layer : α × Draft α}
    (hpriming : print.priming = some layer) : next.priming = some layer := by
  cases hstep with
  | again known => exact hpriming
  | above new rising => exact hpriming
  | below draft single falling unprimed =>
      rw [unprimed] at hpriming
      cases hpriming

theorem Step.lowest [LawfulOrder α] {print next : Print α} {deposition : Deposition α}
    (h : print.Consistent) (hz : IsNumber deposition.height)
    (hstep : Step print deposition next) (hpriming : next.priming = print.priming) {low : α}
    (hlow : print.layers.lowest? = some low) : next.layers.lowest? = some low := by
  have hne : print.layers.entries ≠ [] := by
    intro hnil
    simp [lowest?, hnil] at hlow
  have hchanged := changed_update h.layers hz (taking deposition)
  cases hstep with
  | again known =>
      rcases contains_iff.mp known with ⟨entry, hmem, hkey⟩
      exact (hchanged.lowest ⟨entry, hmem, Or.inl hkey⟩).trans hlow
  | above new rising =>
      rcases key_last_mem h hne with ⟨_, entry, hmem, hkey⟩
      have hlt : entry.1 < key deposition.height := by
        rw [hkey, lt_key_iff, key_lt_iff]
        exact rising.resolve_left hne
      exact (hchanged.lowest ⟨entry, hmem, Or.inr hlt⟩).trans hlow
  | below draft single falling unprimed =>
      rw [unprimed] at hpriming
      cases hpriming

theorem Step.demotion [LawfulOrder α] {print next : Print α} {deposition : Deposition α}
    (hstep : Step print deposition next) {height : α} {draft : Draft α}
    (hbefore : print.priming = none) (hafter : next.priming = some (height, draft)) :
    print.layers.entries = [(key height, draft)] ∧ deposition.height < height ∧
      next.layers.lowest? = some (key deposition.height) := by
  cases hstep with
  | again known =>
      rw [hbefore] at hafter
      cases hafter
  | above new rising =>
      rw [hbefore] at hafter
      cases hafter
  | below draft single falling unprimed =>
      cases hafter
      exact ⟨single, falling, rfl⟩

end Print
end Extrusion
