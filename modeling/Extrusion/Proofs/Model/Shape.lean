import Extrusion.Model
import Extrusion.Proofs.Build.Completion
import Extrusion.Proofs.Builder.Occupation

/-!
# The shape of a model

The layers of a model that was built rise strictly with their number, none of
them is empty, and each has its statistics.
-/

namespace Extrusion

open Scalar

variable {α : Type}

/-!
# Numbers of layers
-/

section

variable {model : Model α} {index : Nat}

theorem Model.layerZ_eq_some_iff {z : α} :
    model.layerZ? index = some z ↔
      ∃ position, index = position + 1 ∧
        ∃ bound : position < model.layers.length, model.layers[position].1 = z := by
  unfold layerZ? nth?
  cases index with
  | zero => simp
  | succ position => simp [List.getElem?_eq_some_iff]

theorem Model.isSome_layerZ_iff :
    (model.layerZ? index).isSome = true ↔ 1 ≤ index ∧ index ≤ model.layers.length := by
  rw [Option.isSome_iff_exists]
  constructor
  · rintro ⟨z, h⟩
    obtain ⟨position, rfl, bound, _⟩ := layerZ_eq_some_iff.mp h
    exact ⟨Nat.succ_pos position, bound⟩
  · intro h
    cases index with
    | zero => cases h.1
    | succ position => exact ⟨_, layerZ_eq_some_iff.mpr ⟨position, rfl, h.2, rfl⟩⟩

end

/-!
# Layers
-/

structure Layer.Complete (layer : Layer α) : Prop where
  paths : layer.paths ≠ #[]
  points : ∀ path ∈ layer.paths, 2 ≤ path.points.size
  temperature : layer.temperature.isSome = true
  feedrate : layer.feedrate.isSome = true

section

variable [Scalar α]

theorem SampleStats.isSome_ofSamples {samples : List α} (h : samples ≠ []) :
    (SampleStats.ofSamples samples).isSome = true := by
  cases samples with
  | nil => exact absurd rfl h
  | cons first rest => rfl

theorem Draft.Occupied.complete_finish {draft : Draft α} (h : draft.Occupied) (padding : α) :
    (draft.finish padding).Complete where
  paths := by
    intro hempty
    have hpaths : draft.paths = #[] := Array.map_eq_empty_iff.mp hempty
    exact h.paths (by rw [hpaths])
  points := by
    intro path _
    exact path.two_le_size
  temperature := SampleStats.isSome_ofSamples h.temperatures
  feedrate := SampleStats.isSome_ofSamples h.feedrates

/-!
# Models
-/

structure Model.WellShaped (model : Model α) : Prop where
  numbered : ∀ index,
    (model.layerZ? index).isSome = true ↔ 1 ≤ index ∧ index ≤ model.layers.length
  rising : ∀ lower upper below above, lower < upper → model.layerZ? lower = some below →
    model.layerZ? upper = some above → below < above
  apart : ∀ index other z z', model.layerZ? index = some z → model.layerZ? other = some z' →
    (z == z') = true → index = other
  layers : ∀ entry ∈ model.layers, IsNumber entry.1 ∧ entry.2.Complete
  priming : ∀ entry ∈ model.priming, IsNumber entry.1 ∧ entry.2.Complete

theorem Model.layerZ_rising {model : Model α}
    (h : model.layers.Pairwise fun a b => a.1 < b.1) {lower upper : Nat} {below above : α}
    (hlt : lower < upper) (hbelow : model.layerZ? lower = some below)
    (habove : model.layerZ? upper = some above) : below < above := by
  obtain ⟨i, rfl, hi, rfl⟩ := layerZ_eq_some_iff.mp hbelow
  obtain ⟨j, rfl, hj, rfl⟩ := layerZ_eq_some_iff.mp habove
  exact List.pairwise_iff_getElem.mp h i j hi hj (Nat.lt_of_succ_lt_succ hlt)

variable [LawfulOrder α]

theorem Model.wellShaped_of_rising {model : Model α}
    (hrising : model.layers.Pairwise fun a b => a.1 < b.1)
    (hlayers : ∀ entry ∈ model.layers, IsNumber entry.1 ∧ entry.2.Complete)
    (hpriming : ∀ entry ∈ model.priming, IsNumber entry.1 ∧ entry.2.Complete) :
    model.WellShaped where
  numbered := by
    intro index
    exact isSome_layerZ_iff
  rising := by
    intro lower upper below above hlt hbelow habove
    exact layerZ_rising hrising hlt hbelow habove
  apart := by
    intro index other z z' h h' hbeq
    rcases Nat.lt_trichotomy index other with hlt | heq | hgt
    · rw [not_beq_of_lt (layerZ_rising hrising hlt h h')] at hbeq
      cases hbeq
    · exact heq
    · rw [not_beq_of_gt (layerZ_rising hrising hgt h' h)] at hbeq
      cases hbeq
  layers := hlayers
  priming := hpriming

/-!
# Models of builders
-/

theorem Builder.layers_toModel {builder : Builder α} (h : builder.print.layers.WellFormed) :
    builder.toModel.layers =
      builder.print.layers.ascending.map fun entry =>
        (entry.1, entry.2.finish builder.padding) := by
  apply List.mergeSort_of_pairwise
  rw [List.pairwise_map]
  unfold LayerStack.ascending
  rw [List.pairwise_reverse]
  -- Heights are kept as keys, and on keys the total order is the order of numbers.
  refine h.descending.imp_of_mem ?_
  intro a b ha hb hlt
  have horder := (LayerStack.lt_iff_order (h.isNumber b hb) (h.isNumber a ha) (h.isKey b hb)
    (h.isKey a ha)).mp hlt
  show (order b.1 a.1 != .gt) = true
  rw [horder]
  rfl

theorem Builder.wellShaped_toModel {builder : Builder α} (hconsistent : builder.print.Consistent)
    (hoccupied : builder.print.Occupied) : builder.toModel.WellShaped := by
  have hlayers := layers_toModel hconsistent.layers
  apply Model.wellShaped_of_rising
  · rw [hlayers, List.pairwise_map]
    unfold LayerStack.ascending
    rw [List.pairwise_reverse]
    exact hconsistent.layers.descending
  · intro entry hentry
    rw [hlayers] at hentry
    obtain ⟨drafted, hmem, rfl⟩ := List.mem_map.mp hentry
    have hdrafted := List.mem_reverse.mp hmem
    exact ⟨hconsistent.layers.isNumber drafted hdrafted,
      (hoccupied.layers drafted hdrafted).complete_finish builder.padding⟩
  · intro entry hentry
    obtain ⟨drafted, hmem, rfl⟩ := Option.map_eq_some_iff.mp hentry
    rcases hoccupied.priming drafted hmem with ⟨hnumber, hdraft⟩
    exact ⟨hnumber, hdraft.complete_finish builder.padding⟩

theorem Builder.wellShaped_replay_new (settings : BuildSettings α)
    (instructions : List (Instruction α)) :
    ((Builder.new settings).replay instructions).toModel.WellShaped :=
  wellShaped_toModel (consistent_replay_new settings instructions)
    (occupied_replay_new settings instructions)

end

/-- Every model is well shaped, whatever its builder was handed and whatever failed. -/
theorem shapeRule (settings : BuildSettings Float) :
    Build.EveryModel settings fun _ model => model.WellShaped := by
  apply Build.everyModel_of_handed
  intro instructions
  exact Builder.wellShaped_replay_new settings instructions

end Extrusion
