import Extrusion.Layer.Stack
import Extrusion.Proofs.Scalar.Order

/-!
# Layer stacks

A well-formed stack lists its heights strictly downward, each of them a number
spelled as a key.  Changing the draft at a height splits such a stack into what
lies above and what lies below it, and touches neither part.
-/

namespace Extrusion
namespace LayerStack

open Scalar Scalar.LawfulOrder

variable {α : Type} [Scalar α]

structure WellFormed (stack : LayerStack α) : Prop where
  isNumber : ∀ entry ∈ stack.entries, IsNumber entry.1
  isKey : ∀ entry ∈ stack.entries, key entry.1 = entry.1
  descending : stack.entries.Pairwise fun a b => b.1 < a.1

def lowest? (stack : LayerStack α) : Option α :=
  stack.entries.getLast?.map (·.1)

theorem wellFormed_empty : (LayerStack.empty : LayerStack α).WellFormed where
  isNumber := by simp [empty]
  isKey := by simp [empty]
  descending := List.Pairwise.nil

/-!
# Changing a draft
-/

/-- What a change at a key leaves: the entries above it and below it, and at
the key the changed draft, or a changed empty one where there was none. -/
inductive Changed (z : α) (change : Draft α → Draft α) :
    List (α × Draft α) → List (α × Draft α) → Prop where
  | known (draft : Draft α) (above below : List (α × Draft α))
      (ha : ∀ entry ∈ above, z < entry.1) (hb : ∀ entry ∈ below, entry.1 < z) :
      Changed z change (above ++ (z, draft) :: below) (above ++ (z, change draft) :: below)
  | new (above below : List (α × Draft α))
      (ha : ∀ entry ∈ above, z < entry.1) (hb : ∀ entry ∈ below, entry.1 < z) :
      Changed z change (above ++ below) (above ++ (z, change .empty) :: below)

section

variable {z : α} {change : Draft α → Draft α} {entries changed : List (α × Draft α)}

theorem Changed.mem_cases (h : Changed z change entries changed) {entry : α × Draft α}
    (hmem : entry ∈ changed) :
    (entry ∈ entries ∧ (entry.1 < z ∨ z < entry.1)) ∨
      (∃ draft, (z, draft) ∈ entries ∧ entry = (z, change draft)) ∨
      ((∀ old ∈ entries, old.1 < z ∨ z < old.1) ∧ entry = (z, change .empty)) := by
  cases h with
  | known draft above below ha hb =>
      simp only [List.mem_append, List.mem_cons] at hmem
      rcases hmem with habove | hself | hbelow
      · exact Or.inl ⟨by simp [habove], Or.inr (ha entry habove)⟩
      · exact Or.inr (Or.inl ⟨draft, by simp, hself⟩)
      · exact Or.inl ⟨by simp [hbelow], Or.inl (hb entry hbelow)⟩
  | new above below ha hb =>
      simp only [List.mem_append, List.mem_cons] at hmem
      rcases hmem with habove | hself | hbelow
      · exact Or.inl ⟨by simp [habove], Or.inr (ha entry habove)⟩
      · refine Or.inr (Or.inr ⟨?_, hself⟩)
        intro old hold
        rcases List.mem_append.mp hold with holdAbove | holdBelow
        · exact Or.inr (ha old holdAbove)
        · exact Or.inl (hb old holdBelow)
      · exact Or.inl ⟨by simp [hbelow], Or.inl (hb entry hbelow)⟩

theorem Changed.mem_of_mem (h : Changed z change entries changed) {entry : α × Draft α}
    (hmem : entry ∈ changed) : entry.1 = z ∨ entry ∈ entries := by
  rcases h.mem_cases hmem with ⟨hold, _⟩ | ⟨draft, _, rfl⟩ | ⟨_, rfl⟩
  · exact Or.inr hold
  · exact Or.inl rfl
  · exact Or.inl rfl

theorem Changed.exists_mem (h : Changed z change entries changed) {entry : α × Draft α}
    (hmem : entry ∈ entries) : ∃ kept ∈ changed, kept.1 = entry.1 := by
  cases h with
  | known draft above below ha hb =>
      simp only [List.mem_append, List.mem_cons] at hmem
      rcases hmem with habove | hself | hbelow
      · exact ⟨entry, by simp [habove], rfl⟩
      · exact ⟨(z, change draft), by simp, by rw [hself]⟩
      · exact ⟨entry, by simp [hbelow], rfl⟩
  | new above below ha hb =>
      rcases List.mem_append.mp hmem with habove | hbelow
      · exact ⟨entry, by simp [habove], rfl⟩
      · exact ⟨entry, by simp [hbelow], rfl⟩

theorem Changed.mem_self (h : Changed z change entries changed) :
    ∃ draft, (z, draft) ∈ changed := by
  cases h with
  | known draft above below ha hb => exact ⟨change draft, by simp⟩
  | new above below ha hb => exact ⟨change .empty, by simp⟩

theorem Changed.wellFormed (h : Changed z change entries changed)
    (hz : IsNumber z) (hkey : key z = z) (hentries : WellFormed ⟨entries⟩) :
    WellFormed ⟨changed⟩ := by
  refine ⟨?_, ?_, ?_⟩
  · intro entry hmem
    rcases h.mem_of_mem hmem with hself | hold
    · rw [hself]
      exact hz
    · exact hentries.isNumber entry hold
  · intro entry hmem
    rcases h.mem_of_mem hmem with hself | hold
    · rw [hself]
      exact hkey
    · exact hentries.isKey entry hold
  · have hdescending := hentries.descending
    cases h with
    | known draft above below ha hb =>
        simp only [List.pairwise_append, List.pairwise_cons, List.mem_cons] at hdescending ⊢
        refine ⟨hdescending.1, ⟨hb, hdescending.2.1.2⟩, ?_⟩
        intro upper hupper lower hlower
        rcases hlower with hself | hbelow
        · subst lower
          exact ha upper hupper
        · exact hdescending.2.2 upper hupper lower (Or.inr hbelow)
    | new above below ha hb =>
        simp only [List.pairwise_append, List.pairwise_cons, List.mem_cons] at hdescending ⊢
        refine ⟨hdescending.1, ⟨hb, hdescending.2.1⟩, ?_⟩
        intro upper hupper lower hlower
        rcases hlower with hself | hbelow
        · subst lower
          exact ha upper hupper
        · exact hdescending.2.2 upper hupper lower hbelow

end

theorem update_empty (z : α) (change : Draft α → Draft α) :
    (LayerStack.empty : LayerStack α).update z change = ⟨[(key z, change .empty)]⟩ := rfl

/-!
# Keys
-/

variable [LawfulOrder α]

theorem key_key (z : α) : key (key z) = key z :=
  add_zero_add_zero z

theorem isNumber_key {z : α} (h : IsNumber z) : IsNumber (key z) :=
  h.add_zero

theorem key_beq {z : α} (h : IsNumber z) : (key z == z) = true :=
  add_zero_beq h

theorem lt_key_iff {a z : α} : a < key z ↔ a < z :=
  lt_add_zero_iff

theorem key_lt_iff {a z : α} : key z < a ↔ z < a :=
  add_zero_lt_iff

theorem key_eq_of_beq {a b : α} (h : (a == b) = true) : key a = key b :=
  (LawfulOrder.beq_iff.mp h).2.2

theorem lt_iff_order {a b : α} (ha : IsNumber a) (hb : IsNumber b) (hak : key a = a)
    (hbk : key b = b) : a < b ↔ order a b = .lt := by
  rw [LawfulOrder.lt_iff]
  show IsNumber a ∧ IsNumber b ∧ order (key a) (key b) = .lt ↔ _
  rw [hak, hbk]
  exact ⟨fun h => h.2.2, fun h => ⟨ha, hb, h⟩⟩

theorem contains_iff {stack : LayerStack α} {z : α} :
    stack.contains z = true ↔ ∃ entry ∈ stack.entries, entry.1 = key z := by
  unfold contains
  rw [List.any_eq_true]
  constructor
  · rintro ⟨entry, hmem, h⟩
    exact ⟨entry, hmem, (order_eq_iff.mp (beq_iff_eq.mp h)).symm⟩
  · rintro ⟨entry, hmem, h⟩
    exact ⟨entry, hmem, beq_iff_eq.mpr (order_eq_iff.mpr h.symm)⟩

/-!
# Splitting at a key
-/

theorem changed_updateEntries {z : α} (hz : IsNumber z) (hkey : key z = z)
    (change : Draft α → Draft α) {entries : List (α × Draft α)}
    (h : WellFormed ⟨entries⟩) :
    Changed z change entries (updateEntries z change entries) := by
  induction entries with
  | nil => exact .new [] [] (by simp) (by simp)
  | cons entry rest ih =>
      rcases entry with ⟨height, draft⟩
      have hnumber : IsNumber height := h.isNumber (height, draft) (by simp)
      have hheight : key height = height := h.isKey (height, draft) (by simp)
      have hdescending := List.pairwise_cons.mp h.descending
      have hrest : WellFormed ⟨rest⟩ := by
        refine ⟨?_, ?_, hdescending.2⟩
        · intro entry hmem
          exact h.isNumber entry (List.mem_cons_of_mem _ hmem)
        · intro entry hmem
          exact h.isKey entry (List.mem_cons_of_mem _ hmem)
      unfold updateEntries
      cases horder : order z height with
      | gt =>
          have hswap := order_swap z height
          rw [horder] at hswap
          have hlt : height < z := (lt_iff_order hnumber hz hheight hkey).mpr hswap.symm
          refine .new [] ((height, draft) :: rest) (by simp) ?_
          intro entry hmem
          rcases List.mem_cons.mp hmem with hhead | htail
          · subst entry
            exact hlt
          · exact lt_trans (hdescending.1 entry htail) hlt
      | eq =>
          have heq : z = height := order_eq_iff.mp horder
          subst height
          exact .known draft [] rest (by simp) (fun entry hmem => hdescending.1 entry hmem)
      | lt =>
          have hlt : z < height := (lt_iff_order hz hnumber hkey hheight).mpr horder
          have habove : ∀ (above : List (α × Draft α)),
              (∀ entry ∈ above, z < entry.1) →
                ∀ entry ∈ (height, draft) :: above, z < entry.1 := by
            intro above ha entry hmem
            rcases List.mem_cons.mp hmem with hhead | htail
            · subst entry
              exact hlt
            · exact ha entry htail
          have hchanged := ih hrest
          generalize updateEntries z change rest = changed at hchanged ⊢
          cases hchanged with
          | known found above below ha hb =>
              exact .known found ((height, draft) :: above) below (habove above ha) hb
          | new above below ha hb =>
              exact .new ((height, draft) :: above) below (habove above ha) hb

theorem changed_update {stack : LayerStack α} (h : stack.WellFormed) {z : α}
    (hz : IsNumber z) (change : Draft α → Draft α) :
    Changed (key z) change stack.entries (stack.update z change).entries :=
  changed_updateEntries (isNumber_key hz) (key_key z) change h

section

variable {z : α} {change : Draft α → Draft α} {entries changed : List (α × Draft α)}

theorem Changed.lowest (h : Changed z change entries changed)
    (hlow : ∃ entry ∈ entries, entry.1 = z ∨ entry.1 < z) :
    lowest? ⟨changed⟩ = lowest? ⟨entries⟩ := by
  unfold lowest?
  cases h with
  | known draft above below ha hb =>
      cases below with
      | nil => simp
      | cons entry rest => simp [List.getLast?_append, List.getLast?_cons_cons]
  | new above below ha hb =>
      rcases hlow with ⟨entry, hmem, hle⟩
      have hbelow : below ≠ [] := by
        intro hnil
        subst below
        rw [List.append_nil] at hmem
        have hlt := ha entry hmem
        rcases hle with heq | hlt'
        · rw [heq] at hlt
          exact lt_irrefl z hlt
        · exact lt_asymm hlt hlt'
      cases below with
      | nil => exact absurd rfl hbelow
      | cons entry rest => simp [List.getLast?_append, List.getLast?_cons_cons]

end

theorem wellFormed_update {stack : LayerStack α} (h : stack.WellFormed) {z : α}
    (hz : IsNumber z) (change : Draft α → Draft α) : (stack.update z change).WellFormed :=
  (changed_update h hz change).wellFormed (isNumber_key hz) (key_key z) h

theorem contains_update {stack : LayerStack α} (h : stack.WellFormed) {z : α}
    (hz : IsNumber z) (change : Draft α → Draft α) :
    (stack.update z change).contains z = true := by
  rcases (changed_update h hz change).mem_self with ⟨draft, hmem⟩
  exact contains_iff.mpr ⟨_, hmem, rfl⟩

/-!
# Single layers
-/

theorem take?_singleton (z : α) (draft : Draft α) :
    (⟨[(key z, draft)]⟩ : LayerStack α).take? z = some (draft, .empty) := by
  simp [take?, removeFrom?, order_self, empty]

end LayerStack
end Extrusion
