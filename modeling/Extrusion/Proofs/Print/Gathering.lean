import Extrusion.Proofs.Layer.Trace
import Extrusion.Proofs.Print.Step

/-!
# Gathering depositions

A stack gathers some depositions when it has one layer for each of their
heights, and each layer collects the depositions at its height in order.
Updating a layer with a deposition gathers one deposition more.
-/

namespace Extrusion

open Scalar Print

variable {α : Type} [Scalar α]

def atHeight (z : α) (depositions : List (Deposition α)) : List (Deposition α) :=
  depositions.filter fun deposition => deposition.height == z

/-- The layers of a stack are some depositions grouped by height. -/
structure LayerStack.Gathers (stack : LayerStack α) (depositions : List (Deposition α)) :
    Prop where
  descending : stack.entries.Pairwise fun a b => b.1 < a.1
  covers : ∀ deposition ∈ depositions,
    ∃ entry ∈ stack.entries, (entry.1 == deposition.height) = true
  occupied : ∀ entry ∈ stack.entries, atHeight entry.1 depositions ≠ []
  collects : ∀ entry ∈ stack.entries, entry.2.Collects (atHeight entry.1 depositions)

theorem atHeight_concat_of_beq {z : α} {deposition : Deposition α}
    (h : (deposition.height == z) = true) (depositions : List (Deposition α)) :
    atHeight z (depositions ++ [deposition]) = atHeight z depositions ++ [deposition] := by
  simp [atHeight, h]

theorem atHeight_concat_of_not_beq {z : α} {deposition : Deposition α}
    (h : (deposition.height == z) = false) (depositions : List (Deposition α)) :
    atHeight z (depositions ++ [deposition]) = atHeight z depositions := by
  simp [atHeight, h]

namespace LayerStack

theorem gathers_empty : (LayerStack.empty : LayerStack α).Gathers [] where
  descending := .nil
  covers := by simp
  occupied := by simp [empty]
  collects := by simp [empty]

theorem Gathers.atHeight_eq_nil [LawfulOrder α] {stack : LayerStack α}
    {depositions : List (Deposition α)} (h : stack.Gathers depositions) {z : α}
    (hz : ∀ entry ∈ stack.entries, entry.1 < z ∨ z < entry.1) :
    atHeight z depositions = [] := by
  unfold atHeight
  rw [List.filter_eq_nil_iff]
  intro deposition hmem hbeq
  rcases h.covers deposition hmem with ⟨entry, hentry, hheight⟩
  have heq : (entry.1 == z) = true := beq_trans hheight hbeq
  rcases hz entry hentry with hlt | hgt
  · rw [not_beq_of_lt hlt] at heq
    cases heq
  · rw [not_beq_of_gt hgt] at heq
    cases heq

theorem Gathers.update [LawfulOrder α] {stack : LayerStack α}
    {depositions : List (Deposition α)} (h : stack.Gathers depositions)
    (hstack : stack.WellFormed) {deposition : Deposition α} (hz : IsNumber deposition.height) :
    (stack.update deposition.height (taking deposition)).Gathers (depositions ++ [deposition]) := by
  have hchanged := changed_update hstack hz (taking deposition)
  have hself : (deposition.height == key deposition.height) = true := beq_symm (key_beq hz)
  -- Every layer off the key keeps its depositions, and the one at the key gets one more.
  have hentry : ∀ entry ∈ (stack.update deposition.height (taking deposition)).entries,
      atHeight entry.1 (depositions ++ [deposition]) ≠ [] ∧
        entry.2.Collects (atHeight entry.1 (depositions ++ [deposition])) := by
    intro entry hmem
    rcases hchanged.mem_cases hmem with ⟨hold, hoff⟩ | ⟨draft, hold, rfl⟩ | ⟨hoff, rfl⟩
    · have hother : (deposition.height == entry.1) = false := by
        rcases hoff with hlt | hgt
        · exact not_beq_of_gt (lt_key_iff.mp hlt)
        · exact not_beq_of_lt (key_lt_iff.mp hgt)
      rw [atHeight_concat_of_not_beq hother]
      exact ⟨h.occupied entry hold, h.collects entry hold⟩
    · rw [atHeight_concat_of_beq hself]
      exact ⟨by simp, (h.collects _ hold).deposit deposition⟩
    · rw [atHeight_concat_of_beq hself, h.atHeight_eq_nil hoff]
      exact ⟨by simp, Draft.collects_empty.deposit deposition⟩
  refine ⟨(wellFormed_update hstack hz _).descending, ?_, fun entry hmem => (hentry entry hmem).1,
    fun entry hmem => (hentry entry hmem).2⟩
  intro found hfound
  rcases List.mem_append.mp hfound with hold | hnew
  · rcases h.covers found hold with ⟨entry, hmem, hheight⟩
    rcases hchanged.exists_mem hmem with ⟨kept, hkept, hsame⟩
    exact ⟨kept, hkept, by rw [hsame]; exact hheight⟩
  · rw [List.mem_singleton.mp hnew]
    rcases hchanged.mem_self with ⟨draft, hmem⟩
    exact ⟨_, hmem, key_beq hz⟩

theorem Gathers.single [LawfulOrder α] {stack : LayerStack α}
    {depositions : List (Deposition α)} (h : stack.Gathers depositions) {z : α} {draft : Draft α}
    (hsingle : stack.entries = [(key z, draft)]) (hz : IsNumber z) :
    depositions ≠ [] ∧ (∀ deposition ∈ depositions, (deposition.height == z) = true) ∧
      draft.Collects depositions := by
  have hmem : (key z, draft) ∈ stack.entries := by simp [hsingle]
  have hheight : ∀ deposition ∈ depositions, (deposition.height == key z) = true := by
    intro deposition hdeposition
    rcases h.covers deposition hdeposition with ⟨entry, hentry, hbeq⟩
    rw [hsingle, List.mem_singleton] at hentry
    subst entry
    exact beq_symm hbeq
  have hall : atHeight (key z) depositions = depositions := List.filter_eq_self.mpr hheight
  have hoccupied := h.occupied _ hmem
  have hcollects := h.collects _ hmem
  rw [hall] at hoccupied hcollects
  refine ⟨hoccupied, ?_, hcollects⟩
  intro deposition hdeposition
  exact beq_trans (hheight deposition hdeposition) (key_beq hz)

end LayerStack
end Extrusion
