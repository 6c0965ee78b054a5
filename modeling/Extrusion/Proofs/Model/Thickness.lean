import Extrusion.Proofs.Layer.Statistics
import Extrusion.Proofs.Model.Numbering
import Extrusion.Proofs.Scalar.Rounding

/-!
# Thickness of layers

Every layer but the first is as thick as its distance to the layer below, rounded to
micrometres.  In exact arithmetic each thickness is off by half a micrometre at most,
so that the layers up to a number add up to the height of the last one, give or take
half a micrometre for each layer above the first.  The extreme thicknesses of a model
are those of its layers, the first one counted as well.
-/

namespace Extrusion

open Scalar

namespace Model

section

variable {α : Type} [Scalar α]

/-- The thicknesses of the layers up to a number, added up. -/
def stackedHeight? (model : Model α) : Nat → Option α
  | 0 => some 0
  | index + 1 => do
      let lower ← model.stackedHeight? index
      let thickness ← model.layerHeight? (index + 1)
      return lower + thickness

def thicknesses (model : Model α) : Set α :=
  { thickness | ∃ index, 1 ≤ index ∧ index ≤ model.layerCount ∧
    model.layerHeight? index = some thickness }

variable {model : Model α}

theorem stackedHeight_add_one {index : Nat} {lower thickness : α}
    (hlower : model.stackedHeight? index = some lower)
    (hthickness : model.layerHeight? (index + 1) = some thickness) :
    model.stackedHeight? (index + 1) = some (lower + thickness) := by
  unfold stackedHeight?
  rw [hlower, hthickness]
  rfl

theorem mem_layerHeights_iff {thickness : α} :
    thickness ∈ model.layerHeights ↔ thickness ∈ model.thicknesses := by
  unfold layerHeights
  rw [List.mem_filterMap]
  constructor
  · intro h
    rcases h with ⟨position, hposition, hthickness⟩
    exact ⟨position + 1, Nat.succ_pos position, List.mem_range.mp hposition, hthickness⟩
  · intro h
    rcases h with ⟨index, hpos, hle, hthickness⟩
    obtain ⟨position, rfl⟩ : ∃ position, index = position + 1 := ⟨index - 1, by omega⟩
    exact ⟨position, List.mem_range.mpr hle, hthickness⟩

theorem layerHeights_ne_nil (h : 1 ≤ model.layerCount) : model.layerHeights ≠ [] := by
  obtain ⟨thickness, hthickness⟩ :=
    Option.isSome_iff_exists.mp (isSome_layerHeight_iff.mpr ⟨Nat.le_refl 1, h⟩)
  exact List.ne_nil_of_mem (mem_layerHeights_iff.mpr ⟨1, Nat.le_refl 1, h, hthickness⟩)

end

section

variable {model : Model ℝ} {index : Nat}

/-- The errors of the layers above the first one add up. -/
theorem exists_stackedHeight {z : ℝ} (hz : model.layerZ? index = some z) :
    ∃ total, model.stackedHeight? index = some total ∧
      |total - z| ≤ ((index : ℝ) - 1) * (1 / 2000) := by
  induction index generalizing z with
  | zero => cases hz
  | succ lower ih =>
      -- The first layer is not rounded, so that the errors start with the second one.
      rcases Nat.eq_zero_or_pos lower with rfl | hpos
      · have hfirst : model.layerHeight? 1 = some z := (layerHeight_one model).trans hz
        refine ⟨0 + z, stackedHeight_add_one rfl hfirst, ?_⟩
        simp
      · obtain ⟨below, hbelow⟩ := exists_layerZ_below hpos hz
        obtain ⟨total, htotal, hnear⟩ := ih hbelow
        refine ⟨_, stackedHeight_add_one htotal (layerHeight_above hbelow hz), ?_⟩
        have hnext := abs_add_toMicrometres_sub_le hnear z
        push_cast
        linarith

theorem exists_extremes (h : 1 ≤ model.layerCount) :
    ∃ low high, model.layerHeightMin? = some low ∧ model.layerHeightMax? = some high ∧
      IsLeast model.thicknesses low ∧ IsGreatest model.thicknesses high := by
  have hsame : { thickness | thickness ∈ model.layerHeights } = model.thicknesses :=
    Set.ext fun thickness => mem_layerHeights_iff
  obtain ⟨low, high, hlow, hhigh, hspans⟩ :=
    (ranges_reduce_self model.layerHeights).exists_spans (layerHeights_ne_nil h)
  rw [← hsame]
  exact ⟨low, high, hlow, hhigh, hspans.isLeast, hspans.isGreatest⟩

end

structure ThicknessRule (model : Model ℝ) : Prop where
  numbered : ∀ index,
    (model.layerHeight? index).isSome = true ↔ 1 ≤ index ∧ index ≤ model.layerCount
  above : ∀ index, 1 ≤ index → index < model.layerCount →
    ∃ below z thickness, model.layerZ? index = some below ∧
      model.layerZ? (index + 1) = some z ∧ model.layerHeight? (index + 1) = some thickness ∧
      0 ≤ thickness ∧ |thickness - (z - below)| ≤ 1 / 2000
  stacked : ∀ index, 1 ≤ index → index ≤ model.layerCount →
    ∃ z total, model.layerZ? index = some z ∧ model.stackedHeight? index = some total ∧
      |total - z| ≤ ((index : ℝ) - 1) * (1 / 2000)
  bare : model.layerCount = 0 → model.layerHeightMin? = none ∧ model.layerHeightMax? = none
  extremes : 1 ≤ model.layerCount →
    ∃ low high, model.layerHeightMin? = some low ∧ model.layerHeightMax? = some high ∧
      IsLeast model.thicknesses low ∧ IsGreatest model.thicknesses high

/-- The first layer may lie below the bed. -/
theorem thicknessRule {model : Model ℝ}
    (hrising : model.layers.Pairwise fun below above => below.1 < above.1) :
    model.ThicknessRule where
  numbered := by
    intro index
    exact isSome_layerHeight_iff
  above := by
    intro index hpos hlt
    obtain ⟨z, hz⟩ := exists_layerZ (Nat.succ_pos index) hlt
    obtain ⟨below, hbelow⟩ := exists_layerZ_below hpos hz
    have hrise : below < z := layerZ_rising hrising (Nat.lt_succ_self index) hbelow hz
    exact ⟨below, z, _, hbelow, hz, layerHeight_above hbelow hz,
      toMicrometres_nonneg (sub_nonneg.mpr hrise.le), abs_toMicrometres_sub_le (z - below)⟩
  stacked := by
    intro index hpos hle
    obtain ⟨z, hz⟩ := exists_layerZ hpos hle
    obtain ⟨total, htotal, hnear⟩ := exists_stackedHeight hz
    exact ⟨z, total, hz, htotal, hnear⟩
  bare := by
    intro hnone
    have hempty : model.layerHeights = [] := by
      unfold layerHeights
      rw [hnone]
      rfl
    unfold layerHeightMin? layerHeightMax?
    rw [hempty]
    exact ⟨rfl, rfl⟩
  extremes := by
    intro hsome
    exact exists_extremes hsome

def evenSteps {α : Type} [Scalar α] (step : α) : Model α where
  layers := [(step, .empty), (step + step, .empty), (step + step + step, .empty)]
  priming := none
  nozzleDiameter := 1

/-- Two distances of half a micrometre count as two micrometres: the layers add up to a
height that is as far off as it can be. -/
theorem thicknessRule_half_micrometres :
    ((evenSteps (1 / 2000 : ℝ)).layers.Pairwise fun below above => below.1 < above.1) ∧
      (evenSteps (1 / 2000 : ℝ)).ThicknessRule ∧
      (evenSteps (1 / 2000 : ℝ)).layerZ? 3 = some (3 / 2000) ∧
      (evenSteps (1 / 2000 : ℝ)).stackedHeight? 3 = some (5 / 2000) := by
  have hrising : (evenSteps (1 / 2000 : ℝ)).layers.Pairwise
      fun below above => below.1 < above.1 := by
    simp [evenSteps]
  have hfirst : (evenSteps (1 / 2000 : ℝ)).layerHeight? 1 = some (1 / 2000) :=
    layerHeight_one _
  have hsecond : (evenSteps (1 / 2000 : ℝ)).layerHeight? 2 = some (1 / 1000) := by
    rw [layerHeight_above rfl rfl, add_sub_cancel_left, toMicrometres_half]
  have hthird : (evenSteps (1 / 2000 : ℝ)).layerHeight? 3 = some (1 / 1000) := by
    rw [layerHeight_above rfl rfl, add_sub_cancel_left, toMicrometres_half]
  refine ⟨hrising, thicknessRule hrising, ?_, ?_⟩
  · have hheight : (1 / 2000 : ℝ) + 1 / 2000 + 1 / 2000 = 3 / 2000 := by norm_num
    rw [← hheight]
    rfl
  · have htotal : (0 : ℝ) + 1 / 2000 + 1 / 1000 + 1 / 1000 = 5 / 2000 := by norm_num
    rw [← htotal]
    exact stackedHeight_add_one (stackedHeight_add_one (stackedHeight_add_one rfl hfirst) hsecond)
      hthird

end Model
end Extrusion
