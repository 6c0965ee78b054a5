import Extrusion.Model

/-!
# Model summaries

What a model comes to, without its geometry.
-/

namespace Extrusion

structure LayerSummary (α : Type) where
  index : Nat
  z : α
  height : α
  pathCount : Nat
  pointCount : Nat
  temperature : Option (SampleStats α)
  feedrate : Option (SampleStats α)
  deriving BEq, DecidableEq, Repr

structure Summary (α : Type) where
  layerCount : Nat
  layerRange : Option (Nat × Nat)
  nozzleDiameter : α
  primingZ : Option α
  bounds : Box3 α
  boundsWithoutPriming : Box3 α
  temperatureMin : Option α
  temperatureMax : Option α
  feedrateMin : Option α
  feedrateMax : Option α
  layerHeightMin : Option α
  layerHeightMax : Option α
  layers : List (LayerSummary α)
  deriving BEq, DecidableEq, Repr

namespace Summary

variable {α : Type}

def layer? (summary : Summary α) (index : Nat) : Option (LayerSummary α) :=
  if index = 0 then none else summary.layers[index - 1]?

end Summary

namespace Model

variable {α : Type} [Scalar α]

def summarizeLayer (model : Model α) (index : Nat) (z : α) (layer : Layer α) :
    LayerSummary α where
  index := index
  z := z
  height := (model.layerHeight? index).getD z
  pathCount := layer.paths.size
  pointCount := layer.pointCount
  temperature := layer.temperature
  feedrate := layer.feedrate

def summary (model : Model α) : Summary α where
  layerCount := model.layerCount
  layerRange := model.layerRange
  nozzleDiameter := model.nozzleDiameter
  primingZ := model.priming.map (·.1)
  bounds := model.bounds true
  boundsWithoutPriming := model.bounds false
  temperatureMin := model.temperatureMin?
  temperatureMax := model.temperatureMax?
  feedrateMin := model.feedrateMin?
  feedrateMax := model.feedrateMax?
  layerHeightMin := model.layerHeightMin?
  layerHeightMax := model.layerHeightMax?
  layers := model.layers.mapIdx fun k entry => model.summarizeLayer (k + 1) entry.1 entry.2

end Model

end Extrusion
