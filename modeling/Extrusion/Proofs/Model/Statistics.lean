import Extrusion.Proofs.Builder.Acceptance
import Extrusion.Proofs.Layer.Statistics
import Extrusion.Proofs.Model.Shape

/-!
# Temperatures and feed rates of a model

The ranges of a model are those of the samples that were taken at its
depositions, the ones of the priming layer left out, and a model without layers
has none.  The statistics of each layer are about the samples at its height.
-/

namespace Extrusion

open Scalar

variable {α : Type} [Scalar α]

structure Layer.Sampled (describes : SampleStats α → List α → Prop) (layer : Layer α)
    (depositions : List (Deposition α)) : Prop where
  temperature : ∃ stats, layer.temperature = some stats ∧
    describes stats (depositions.map fun deposition => deposition.temperature)
  feedrate : ∃ stats, layer.feedrate = some stats ∧
    describes stats (depositions.map fun deposition => deposition.feedrate)

/-- The statistics of a model with some depositions in its priming layer and some in its
other layers. -/
structure Model.Sampled (describes : SampleStats α → List α → Prop) (model : Model α)
    (primed regular : List (Deposition α)) : Prop where
  temperatures : Ranges model.temperatureMin? model.temperatureMax?
    (regular.map fun deposition => deposition.temperature)
  feedrates : Ranges model.feedrateMin? model.feedrateMax?
    (regular.map fun deposition => deposition.feedrate)
  temperatureMin : model.temperatureMin? = none ↔ model.layers = []
  temperatureMax : model.temperatureMax? = none ↔ model.layers = []
  feedrateMin : model.feedrateMin? = none ↔ model.layers = []
  feedrateMax : model.feedrateMax? = none ↔ model.layers = []
  covers : ∀ deposition ∈ regular, ∃ entry ∈ model.layers, (entry.1 == deposition.height) = true
  layers : ∀ entry ∈ model.layers, entry.2.Sampled describes (atHeight entry.1 regular)
  unprimed : model.priming = none → primed = []
  priming : ∀ height layer, model.priming = some (height, layer) →
    Demoted height primed regular ∧ layer.Sampled describes primed

/-!
# Layers
-/

theorem Draft.sampled_finish {describes : SampleStats α → List α → Prop}
    (hdescribes : ∀ samples : List α, samples ≠ [] →
      ∃ stats, SampleStats.ofSamples samples = some stats ∧ describes stats samples)
    {draft : Draft α} {depositions : List (Deposition α)} (hne : depositions ≠ [])
    (h : draft.Collects depositions) (padding : α) :
    (draft.finish padding).Sampled describes depositions where
  temperature := by
    show ∃ stats, SampleStats.ofSamples draft.temperatures.toList = some stats ∧ _
    rw [h.temperatures]
    exact hdescribes _ (by simpa using hne)
  feedrate := by
    show ∃ stats, SampleStats.ofSamples draft.feedrates.toList = some stats ∧ _
    rw [h.feedrates]
    exact hdescribes _ (by simpa using hne)

theorem LayerStack.Gathers.mem_flatten_iff [LawfulOrder α] {stack : LayerStack α}
    {depositions : List (Deposition α)} (h : stack.Gathers depositions)
    (valueOf : Deposition α → α) (x : α) :
    x ∈ (stack.ascending.map fun entry => (atHeight entry.1 depositions).map valueOf).flatten ↔
      x ∈ depositions.map valueOf := by
  rw [← List.flatMap_def, List.mem_flatMap, List.mem_map]
  constructor
  · rintro ⟨entry, _, hx⟩
    obtain ⟨deposition, hmem, rfl⟩ := List.mem_map.mp hx
    exact ⟨deposition, List.mem_of_mem_filter hmem, rfl⟩
  · rintro ⟨deposition, hmem, rfl⟩
    rcases h.covers deposition hmem with ⟨entry, hentry, hheight⟩
    refine ⟨entry, List.mem_reverse.mpr hentry, List.mem_map_of_mem ?_⟩
    exact List.mem_filter.mpr ⟨hmem, beq_symm hheight⟩

theorem LayerStack.Gathers.eq_nil_iff {stack : LayerStack α} {depositions : List (Deposition α)}
    (h : stack.Gathers depositions) : stack.entries = [] ↔ depositions = [] := by
  constructor
  · intro hempty
    rw [List.eq_nil_iff_forall_not_mem]
    intro deposition hmem
    rcases h.covers deposition hmem with ⟨entry, hentry, _⟩
    rw [hempty] at hentry
    cases hentry
  · rintro rfl
    rw [List.eq_nil_iff_forall_not_mem]
    intro entry hentry
    exact h.occupied entry hentry rfl

/-!
# Models
-/

variable [LawfulBounds α]

theorem SampleStats.forall₂_covers {entries : List (α × Draft α)}
    {samplesOf : Draft α → List α} (h : ∀ entry ∈ entries, samplesOf entry.2 ≠ []) :
    List.Forall₂ SampleStats.Covers
      (entries.filterMap fun entry => SampleStats.ofSamples (samplesOf entry.2))
      (entries.map fun entry => samplesOf entry.2) := by
  induction entries with
  | nil => exact .nil
  | cons entry rest ih =>
      obtain ⟨stats, hstats, hcovers⟩ := exists_ofSamples (h entry List.mem_cons_self)
      have hfilter : (entry :: rest).filterMap (fun entry => ofSamples (samplesOf entry.2)) =
          stats :: rest.filterMap fun entry => ofSamples (samplesOf entry.2) :=
        List.filterMap_cons_some hstats
      rw [hfilter, List.map_cons]
      exact .cons hcovers (ih fun other hother => h other (List.mem_cons_of_mem entry hother))

theorem Builder.ranges_samples {builder : Builder α} {regular : List (Deposition α)}
    (h : builder.print.layers.Gathers regular) (samplesOf : Draft α → List α)
    {valueOf : Deposition α → α}
    (hsamples : ∀ entry ∈ builder.print.layers.entries,
      samplesOf entry.2 = (atHeight entry.1 regular).map valueOf)
    {all : List (SampleStats α)}
    (hall : all = builder.print.layers.ascending.filterMap fun entry =>
      SampleStats.ofSamples (samplesOf entry.2)) :
    Ranges (reduce? Scalar.min (all.map (·.min))) (reduce? Scalar.max (all.map (·.max)))
      (regular.map valueOf) := by
  have hsame : (builder.print.layers.ascending.map fun entry => samplesOf entry.2) =
      builder.print.layers.ascending.map fun entry => (atHeight entry.1 regular).map valueOf := by
    apply List.map_congr_left
    intro entry hentry
    exact hsamples entry (List.mem_reverse.mp hentry)
  have hoccupied : ∀ entry ∈ builder.print.layers.ascending, samplesOf entry.2 ≠ [] := by
    intro entry hentry
    rw [hsamples entry (List.mem_reverse.mp hentry)]
    simpa using h.occupied entry (List.mem_reverse.mp hentry)
  have hcovers := SampleStats.forall₂_covers hoccupied
  rw [← hall, hsame] at hcovers
  exact (SampleStats.ranges_reduce hcovers).congr (h.mem_flatten_iff valueOf)

theorem Builder.sampled_toModel {describes : SampleStats α → List α → Prop}
    (hdescribes : ∀ samples : List α, samples ≠ [] →
      ∃ stats, SampleStats.ofSamples samples = some stats ∧ describes stats samples)
    {builder : Builder α} {primed regular : List (Deposition α)}
    (hconsistent : builder.print.Consistent) (h : builder.print.Holds primed regular) :
    builder.toModel.Sampled describes primed regular := by
  have hlayers := layers_toModel hconsistent.layers
  have htemperatures : Ranges builder.toModel.temperatureMin? builder.toModel.temperatureMax?
      (regular.map fun deposition => deposition.temperature) := by
    apply ranges_samples h.layers (fun draft => draft.temperatures.toList) fun entry hentry =>
      (h.layers.collects entry hentry).temperatures
    rw [Model.temperatures, hlayers, List.filterMap_map]
    rfl
  have hfeedrates : Ranges builder.toModel.feedrateMin? builder.toModel.feedrateMax?
      (regular.map fun deposition => deposition.feedrate) := by
    apply ranges_samples h.layers (fun draft => draft.feedrates.toList) fun entry hentry =>
      (h.layers.collects entry hentry).feedrates
    rw [Model.feedrates, hlayers, List.filterMap_map]
    rfl
  have hnothing : ∀ valueOf : Deposition α → α,
      regular.map valueOf = [] ↔ builder.toModel.layers = [] := by
    intro valueOf
    rw [List.map_eq_nil_iff, ← h.layers.eq_nil_iff, hlayers, List.map_eq_nil_iff,
      LayerStack.ascending, List.reverse_eq_nil_iff]
  refine ⟨htemperatures, hfeedrates, htemperatures.eq_none_iff.1.trans (hnothing _),
    htemperatures.eq_none_iff.2.trans (hnothing _), hfeedrates.eq_none_iff.1.trans (hnothing _),
    hfeedrates.eq_none_iff.2.trans (hnothing _), ?_, ?_, ?_, ?_⟩
  · intro deposition hdeposition
    rcases h.layers.covers deposition hdeposition with ⟨entry, hentry, hheight⟩
    rw [hlayers]
    exact ⟨_, List.mem_map_of_mem (List.mem_reverse.mpr hentry), hheight⟩
  · intro entry hentry
    rw [hlayers] at hentry
    obtain ⟨drafted, hmem, rfl⟩ := List.mem_map.mp hentry
    have hdrafted := List.mem_reverse.mp hmem
    exact Draft.sampled_finish hdescribes (h.layers.occupied drafted hdrafted)
      (h.layers.collects drafted hdrafted) builder.padding
  · intro hnone
    exact h.unprimed (Option.map_eq_none_iff.mp hnone)
  · intro height layer hpriming
    obtain ⟨⟨height', draft⟩, hdraft, heq⟩ := Option.map_eq_some_iff.mp hpriming
    cases heq
    rcases h.priming height' draft hdraft with ⟨hdemoted, hcollects⟩
    exact ⟨hdemoted, Draft.sampled_finish hdescribes hdemoted.occupied hcollects builder.padding⟩

/-- A model describes what was accepted of some instructions. -/
def Model.Reflects (describes : SampleStats α → List α → Prop) (settings : BuildSettings α)
    (instructions : List (Instruction α)) (model : Model α) : Prop :=
  ∃ primed regular, (Builder.new settings).Accepts instructions (primed ++ regular) ∧
    model.Sampled describes primed regular

theorem Build.everyModel_reflects {describes : SampleStats α → List α → Prop}
    (hdescribes : ∀ samples : List α, samples ≠ [] →
      ∃ stats, SampleStats.ofSamples samples = some stats ∧ describes stats samples)
    (settings : BuildSettings α) :
    EveryModel settings (Model.Reflects describes settings) := by
  apply everyModel_of_handed
  intro instructions
  rcases Builder.holds_replay_new settings instructions with ⟨primed, regular, haccepts, hholds⟩
  exact ⟨primed, regular, haccepts, Builder.sampled_toModel hdescribes
    (Builder.consistent_replay_new settings instructions) hholds⟩

structure SampleStats.Summarizes (stats : SampleStats α) (samples : List α) : Prop where
  covers : stats.Covers samples
  averages : stats.Averages samples

/-- Every model has the ranges and the statistics of what was deposited; in exact arithmetic
the averages are the means. -/
theorem statisticsRule (settings : BuildSettings Float) (ideal : BuildSettings ℝ) :
    Build.EveryModel settings (Model.Reflects SampleStats.Covers settings) ∧
      Build.EveryModel ideal (Model.Reflects SampleStats.Summarizes ideal) := by
  constructor
  · exact Build.everyModel_reflects (fun samples => SampleStats.exists_ofSamples) settings
  · refine Build.everyModel_reflects (fun samples hne => ?_) ideal
    obtain ⟨stats, hstats, hcovers⟩ := SampleStats.exists_ofSamples hne
    exact ⟨stats, hstats, hcovers, SampleStats.averages_ofSamples hstats hcovers⟩

end Extrusion
