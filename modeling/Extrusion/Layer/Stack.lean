import Extrusion.Layer

/-!
# Layer stacks

The drafts of all layers by height, the highest one first.  Heights are told
apart by the total order of scalars after adding zero, which makes the two
zeros of a floating-point type one height.
-/

namespace Extrusion

structure LayerStack (α : Type) where
  /-- Heights and drafts, the highest first. -/
  entries : List (α × Draft α)

namespace LayerStack

variable {α : Type} [Scalar α]

def empty : LayerStack α := ⟨[]⟩

def size (stack : LayerStack α) : Nat :=
  stack.entries.length

/-- Adding zero makes one key of the two zeros. -/
def key (z : α) : α := z + 0

def contains (stack : LayerStack α) (z : α) : Bool :=
  stack.entries.any fun entry => Scalar.order (key z) entry.1 == .eq

def updateEntries (z : α) (change : Draft α → Draft α) :
    List (α × Draft α) → List (α × Draft α)
  | [] => [(z, change .empty)]
  | (height, draft) :: rest =>
      match Scalar.order z height with
      | .gt => (z, change .empty) :: (height, draft) :: rest
      | .eq => (height, change draft) :: rest
      | .lt => (height, draft) :: updateEntries z change rest

/-- Changes the draft at a height, an empty one where there was none. -/
def update (stack : LayerStack α) (z : α) (change : Draft α → Draft α) : LayerStack α :=
  ⟨updateEntries (key z) change stack.entries⟩

def removeFrom? (z : α) :
    List (α × Draft α) → Option (Draft α × List (α × Draft α))
  | [] => none
  | (height, draft) :: rest =>
      if Scalar.order z height == .eq then some (draft, rest)
      else (removeFrom? z rest).map fun (found, others) => (found, (height, draft) :: others)

def take? (stack : LayerStack α) (z : α) : Option (Draft α × LayerStack α) :=
  (removeFrom? (key z) stack.entries).map fun (draft, rest) => (draft, ⟨rest⟩)

def ascending (stack : LayerStack α) : List (α × Draft α) :=
  stack.entries.reverse

end LayerStack

end Extrusion
