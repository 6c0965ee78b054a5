import Extrusion.Proofs.Layer.Padding
import Extrusion.Proofs.Model.Shape

/-!
# Padded models

Finishing a build keeps all layers and paths in order and pads every path once,
those of the priming layer included.
-/

namespace Extrusion

open Scalar

variable {α : Type}

/-- A layer is at the height of a draft, and has its paths padded. -/
structure Layer.Finishes (pads : Path α → Path α → Prop) (drafted : α × Draft α)
    (finished : α × Layer α) : Prop where
  height : finished.1 = drafted.1
  paths : List.Forall₂ pads drafted.2.paths.toList finished.2.paths.toList

variable [Scalar α]

/-- A model has the layers of a builder, the lowest one first, with their paths padded. -/
structure Model.Finishes (pads : Path α → Path α → Prop) (builder : Builder α)
    (model : Model α) : Prop where
  layers : List.Forall₂ (Layer.Finishes pads) builder.print.layers.ascending model.layers
  priming : Option.Rel (Layer.Finishes pads) builder.print.priming model.priming

/-- A model has what a builder collects from some instructions, with the paths padded. -/
def Model.Pads (pads : Path α → Path α → Prop) (settings : BuildSettings α)
    (instructions : List (Instruction α)) (model : Model α) : Prop :=
  model.Finishes pads ((Builder.new settings).replay instructions)

/-!
# Layers
-/

theorem Draft.finishes_finish {pads : Path α → Path α → Prop} {padding : α}
    (h : ∀ path : Path α, pads path (path.padded padding)) (z : α) (draft : Draft α) :
    Layer.Finishes pads (z, draft) (z, draft.finish padding) where
  height := rfl
  paths := by
    show List.Forall₂ pads draft.paths.toList
      (draft.paths.map fun path => path.padded padding).toList
    rw [Array.toList_map, List.forall₂_map_right_iff, List.forall₂_same]
    intro path _
    exact h path

theorem Builder.finishes_toModel [LawfulOrder α] {pads : Path α → Path α → Prop}
    {builder : Builder α} (h : ∀ path : Path α, pads path (path.padded builder.padding))
    (hlayers : builder.print.layers.WellFormed) : builder.toModel.Finishes pads builder where
  layers := by
    rw [layers_toModel hlayers, List.forall₂_map_right_iff, List.forall₂_same]
    intro entry _
    exact Draft.finishes_finish h entry.1 entry.2
  priming := by
    show Option.Rel _ builder.print.priming
      (builder.print.priming.map fun entry => (entry.1, entry.2.finish builder.padding))
    cases builder.print.priming with
    | none => exact .none
    | some entry => exact .some (Draft.finishes_finish h entry.1 entry.2)

/-!
# Builds
-/

theorem Builder.settings_handle (builder : Builder α) (instruction : Instruction α) :
    (builder.handle instruction).1.settings = builder.settings := by
  have hhandled := handled builder instruction
  generalize builder.handle instruction = result at hhandled ⊢
  cases hhandled <;> rfl

theorem Builder.settings_replay (builder : Builder α) (instructions : List (Instruction α)) :
    (builder.replay instructions).settings = builder.settings := by
  induction instructions generalizing builder with
  | nil => rfl
  | cons instruction rest ih => rw [replay_cons, ih, settings_handle]

theorem Build.everyModel_pads [LawfulOrder α] {settings : BuildSettings α}
    {pads : Path α → Path α → Prop}
    (h : ∀ path : Path α, pads path (path.padded (settings.nozzleDiameter / 2.0))) :
    EveryModel settings (Model.Pads pads settings) := by
  apply everyModel_of_handed
  intro instructions
  apply Builder.finishes_toModel
  · unfold Builder.padding
    rw [Builder.settings_replay]
    exact h
  · exact (Builder.consistent_replay_new settings instructions).layers

/-- Every path of a finished build is padded once.  In exact arithmetic each end moves by
half of the nozzle, straight away from its neighbour. -/
theorem paddingRule (settings : BuildSettings Float) {ideal : BuildSettings ℝ}
    (h : 0 < ideal.nozzleDiameter) :
    Build.EveryModel settings
        (Model.Pads (Path.PaddedOnce (settings.nozzleDiameter / 2.0)) settings) ∧
      Build.EveryModel ideal
        (Model.Pads (Path.PaddedApart (ideal.nozzleDiameter / 2)) ideal) := by
  constructor
  · apply Build.everyModel_pads
    intro path
    exact path.paddedOnce_padded _
  · apply Build.everyModel_pads
    intro path
    have htwo : (2.0 : ℝ) = 2 := by norm_num
    rw [htwo]
    exact (path.paddedOnce_padded _).apart (half_pos h)

theorem paddingRule_default :
    0 < (BuildSettings.default : BuildSettings ℝ).nozzleDiameter ∧
      Build.EveryModel (.default : BuildSettings Float)
        (Model.Pads (Path.PaddedOnce ((.default : BuildSettings Float).nozzleDiameter / 2.0))
          .default) ∧
      Build.EveryModel (.default : BuildSettings ℝ)
        (Model.Pads (Path.PaddedApart ((.default : BuildSettings ℝ).nozzleDiameter / 2))
          .default) := by
  have hpositive : 0 < (BuildSettings.default : BuildSettings ℝ).nozzleDiameter := by
    show (0 : ℝ) < 0.4
    norm_num
  exact ⟨hpositive, paddingRule .default hpositive⟩

end Extrusion
