import Extrusion.Model.Summary
import Extrusion.Numeric.Layout
import Extrusion.Text
import Extrusion.Text.Json

/-!
# Reports

The two texts that a model summary is shown as: a JSON document, and lines for
people to read.
-/

namespace Extrusion

/-! ## JSON -/

open Text (Json)

def jsonNat (n : Nat) : Json :=
  .number (toString n)

/-- A number; what is not finite has no JSON text and becomes null. -/
def jsonFloat (x : Float) : Json :=
  .number (Numeric.NumberStyle.json.text x)

def jsonOption {β : Type} (encode : β → Json) : Option β → Json
  | some value => encode value
  | none => .null

def Point3.toJson (point : Point3 Float) : Json :=
  .object [("x", jsonFloat point.x), ("y", jsonFloat point.y), ("z", jsonFloat point.z)]

def Box3.toJson (box : Box3 Float) : Json :=
  .object [("min", box.min.toJson), ("max", box.max.toJson)]

def SampleStats.toJson (stats : SampleStats Float) : Json :=
  .object
    [("min", jsonFloat stats.min), ("max", jsonFloat stats.max), ("avg", jsonFloat stats.avg)]

def LayerSummary.toJson (layer : LayerSummary Float) : Json :=
  .object
    [("index", jsonNat layer.index), ("z", jsonFloat layer.z), ("height", jsonFloat layer.height),
      ("path_count", jsonNat layer.pathCount), ("point_count", jsonNat layer.pointCount),
      ("temperature", jsonOption SampleStats.toJson layer.temperature),
      ("feedrate", jsonOption SampleStats.toJson layer.feedrate)]

namespace Summary

def toJson (summary : Summary Float) : Json :=
  .object
    [("layer_count", jsonNat summary.layerCount),
      ("layer_range",
        jsonOption (fun (first, last) => .array [jsonNat first, jsonNat last])
          summary.layerRange),
      ("nozzle_diameter", jsonFloat summary.nozzleDiameter),
      ("priming_layer_z", jsonOption jsonFloat summary.primingZ),
      ("boundaries", summary.bounds.toJson),
      ("boundaries_without_priming", summary.boundsWithoutPriming.toJson),
      ("temperature_min", jsonOption jsonFloat summary.temperatureMin),
      ("temperature_max", jsonOption jsonFloat summary.temperatureMax),
      ("feedrate_min", jsonOption jsonFloat summary.feedrateMin),
      ("feedrate_max", jsonOption jsonFloat summary.feedrateMax),
      ("layer_height_min", jsonOption jsonFloat summary.layerHeightMin),
      ("layer_height_max", jsonOption jsonFloat summary.layerHeightMax),
      ("layers", .array (summary.layers.map LayerSummary.toJson))]

def jsonText (summary : Summary Float) : String :=
  summary.toJson.render 0 ++ "\n"

/-! ## Lines -/

def sizeText (box : Box3 Float) : String :=
  let size := box.size
  let side (x : Float) : String := Numeric.fixed 3 x
  s!"{side size.x} x {side size.y} x {side size.z} mm"

def rangeLine (label : String) (low high : Option Float) (unit : String) : List String :=
  match low, high with
  | some low, some high =>
      let plain (x : Float) : String := Numeric.NumberStyle.plain.text x
      [s!"{Text.padRight 16 label} {plain low} - {plain high} {unit}"]
  | _, _ => []

def layerLine (layer : LayerSummary Float) : String :=
  let index := Text.padRight 5 (toString layer.index)
  let z := Text.padRight 8 (Numeric.fixed 3 layer.z)
  let height := Text.padRight 6 (Numeric.fixed 3 layer.height)
  let paths := Text.padRight 5 (toString layer.pathCount)
  s!"  #{index} z={z} h={height} paths={paths} points={layer.pointCount}"

def rangeText : Nat × Nat → String
  | (first, last) => s!"layer range:     {first}..={last}"

def lines (summary : Summary Float) : List String :=
  [s!"layers:          {summary.layerCount}"]
    ++ (summary.layerRange.map rangeText).toList
    ++ (summary.primingZ.map fun z => s!"priming layer:   {Numeric.fixed 3 z} mm").toList
    ++ [s!"nozzle diameter: {Numeric.NumberStyle.plain.text summary.nozzleDiameter} mm",
      s!"model size:      {sizeText summary.boundsWithoutPriming}",
      s!"with priming:    {sizeText summary.bounds}"]
    ++ rangeLine "layer height:" summary.layerHeightMin summary.layerHeightMax "mm"
    ++ rangeLine "temperature:" summary.temperatureMin summary.temperatureMax "°C"
    ++ rangeLine "feedrate:" summary.feedrateMin summary.feedrateMax "mm/min"
    ++ summary.layers.map layerLine

def plainText (summary : Summary Float) : String :=
  String.join (summary.lines.map (· ++ "\n"))

end Summary

end Extrusion
