import Extrusion.Builder

/-!
# Models

A finished print: its layers by rising height, numbered from one, and the
priming layer if there is one.
-/

namespace Extrusion

structure Model (α : Type) where
  /-- Heights and layers, the lowest first. -/
  layers : List (α × Layer α)
  priming : Option (α × Layer α)
  nozzleDiameter : α

def reduce? {β : Type} (combine : β → β → β) : List β → Option β
  | [] => none
  | first :: rest => some (rest.foldl combine first)

namespace Model

variable {α : Type} [Scalar α]

/-- Layers may come in any order; equal heights keep theirs. -/
def new (layers : List (α × Layer α)) (priming : Option (α × Layer α)) (nozzleDiameter : α) :
    Model α where
  layers := layers.mergeSort fun a b => Scalar.order a.1 b.1 != .gt
  priming := priming
  nozzleDiameter := nozzleDiameter

def layerCount (model : Model α) : Nat :=
  model.layers.length

def layerRange (model : Model α) : Option (Nat × Nat) :=
  if model.layers.isEmpty then none else some (1, model.layerCount)

def nth? (model : Model α) (index : Nat) : Option (α × Layer α) :=
  if index = 0 then none else model.layers[index - 1]?

def layer? (model : Model α) (index : Nat) : Option (Layer α) :=
  (model.nth? index).map (·.2)

def layerZ? (model : Model α) (index : Nat) : Option α :=
  (model.nth? index).map (·.1)

/-- How thick a layer is.  The first one is as thick as it is high; any other
is as thick as its distance to the layer below, in whole micrometres. -/
def layerHeight? (model : Model α) (index : Nat) : Option α := do
  let z ← model.layerZ? index
  if index = 1 then return z
  let below ← model.layerZ? (index - 1)
  return Scalar.toMicrometres (z - below)

def layerHeights (model : Model α) : List α :=
  (List.range model.layerCount).filterMap fun k => model.layerHeight? (k + 1)

/-! ## Bounds -/

/-- The box around all layers, from the bed to the highest one. -/
def layerBounds? (model : Model α) : Option (Box3 α) :=
  let planes := model.layers.filterMap fun entry => entry.2.bounds
  (reduce? Box2.merged planes).map fun plane =>
    .ofPlanar plane 0 ((model.layers.map (·.1)).foldl Scalar.max 0)

/-- The box around the priming layer, from the bed to its height. -/
def primingBounds? (model : Model α) : Option (Box3 α) := do
  let (z, layer) ← model.priming
  let plane ← layer.bounds
  return .ofPlanar plane (Scalar.min z 0) (Scalar.max z 0)

/-- The box around the model, with or without its priming layer.  A model with
nothing in it has the box at the origin. -/
def bounds (model : Model α) (withPriming : Bool) : Box3 α :=
  if withPriming then
    match model.layerBounds?, model.primingBounds? with
    | some a, some b => a.merged b
    | some a, none => a
    | none, some b => b
    | none, none => 0
  else model.layerBounds?.getD 0

/-! ## Ranges -/

def temperatures (model : Model α) : List (SampleStats α) :=
  model.layers.filterMap fun entry => entry.2.temperature

def feedrates (model : Model α) : List (SampleStats α) :=
  model.layers.filterMap fun entry => entry.2.feedrate

def temperatureMin? (model : Model α) : Option α :=
  reduce? Scalar.min (model.temperatures.map (·.min))

def temperatureMax? (model : Model α) : Option α :=
  reduce? Scalar.max (model.temperatures.map (·.max))

def feedrateMin? (model : Model α) : Option α :=
  reduce? Scalar.min (model.feedrates.map (·.min))

def feedrateMax? (model : Model α) : Option α :=
  reduce? Scalar.max (model.feedrates.map (·.max))

def layerHeightMin? (model : Model α) : Option α :=
  reduce? Scalar.min model.layerHeights

def layerHeightMax? (model : Model α) : Option α :=
  reduce? Scalar.max model.layerHeights

end Model

namespace Builder

variable {α : Type} [Scalar α]

def toModel (builder : Builder α) : Model α :=
  let finish (entry : α × Draft α) : α × Layer α := (entry.1, entry.2.finish builder.padding)
  .new (builder.print.layers.ascending.map finish) (builder.print.priming.map finish)
    builder.settings.nozzleDiameter

end Builder

def Model.ofInstructions {α : Type} [Scalar α] (settings : BuildSettings α)
    (instructions : List (Instruction α)) : Except (Failure α) (Model α) := do
  settings.validate.mapError .misconfigured
  let builder ← ((Builder.new settings).handleAll instructions).mapError .unbuildable
  return builder.toModel

end Extrusion
