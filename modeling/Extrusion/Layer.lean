import Extrusion.Geometry.Box
import Extrusion.Layer.Path
import Extrusion.Layer.Statistics

/-!
# Layers

A layer holds the paths that were deposited at one height.  While it is being
printed it also collects the temperature and the feed rate of every deposition;
finishing it pads its paths and turns the samples into statistics.
-/

namespace Extrusion

structure Layer (α : Type) where
  paths : Array (Path α)
  temperature : Option (SampleStats α)
  feedrate : Option (SampleStats α)

namespace Layer

variable {α : Type}

def empty : Layer α := ⟨#[], none, none⟩

variable [Scalar α]

/-- Adds a segment to some paths: it continues the last path where that ends at
its source, and starts a new path otherwise. -/
def extend (paths : Array (Path α)) (source destination : Vec2 α) : Array (Path α) :=
  let joins : Bool :=
    match paths.back? with
    | some path => path.last == source
    | none => false
  if joins then paths.modify (paths.size - 1) fun path => path.push destination
  else paths.push (.new source destination)

def addSegment (layer : Layer α) (source destination : Vec2 α) : Layer α :=
  { layer with paths := extend layer.paths source destination }

def points (layer : Layer α) : List (Vec2 α) :=
  layer.paths.toList.flatMap fun path => path.points.toList

def pointCount (layer : Layer α) : Nat :=
  layer.paths.foldl (fun count path => count + path.size) 0

def bounds (layer : Layer α) : Option (Box2 α) :=
  Box2.ofPoints layer.points

end Layer

structure Draft (α : Type) where
  paths : Array (Path α)
  temperatures : Array α
  feedrates : Array α

namespace Draft

variable {α : Type}

def empty : Draft α := ⟨#[], #[], #[]⟩

variable [Scalar α]

def trace (paths : Array (Path α)) : List (Vec2 α) → Array (Path α)
  | source :: destination :: corners =>
      trace (Layer.extend paths source destination) (destination :: corners)
  | _ => paths

def deposit (draft : Draft α) (corners : List (Vec2 α)) (temperature feedrate : α) :
    Draft α where
  paths := trace draft.paths corners
  temperatures := draft.temperatures.push temperature
  feedrates := draft.feedrates.push feedrate

def finish (draft : Draft α) (padding : α) : Layer α where
  paths := draft.paths.map fun path => path.padded padding
  temperature := SampleStats.ofSamples draft.temperatures.toList
  feedrate := SampleStats.ofSamples draft.feedrates.toList

end Draft

end Extrusion
