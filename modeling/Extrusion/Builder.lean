import Extrusion.Print

/-!
# Builders

A builder runs instructions on a machine and collects what they deposit.  An
instruction that fails leaves the print as it was; the machine has moved all
the same, unless it did not know the command.
-/

namespace Extrusion

structure Builder (α : Type) where
  settings : BuildSettings α
  machine : Machine α
  print : Print α

namespace Builder

variable {α : Type} [Scalar α]

def new (settings : BuildSettings α) : Builder α :=
  ⟨settings, .new settings.skipUnknown, .empty⟩

/-- The number of layers, the priming layer not counted. -/
def layerCount (builder : Builder α) : Nat :=
  builder.print.layers.size

def collect (settings : BuildSettings α) (machine : Machine α) (print : Print α)
    (command : Command α) : Except (BuildError α) (Print α) := do
  let deposition ←
    Deposition.ofCommand settings.arcMaxError machine.previous machine.current command
  match deposition with
  | some deposition => (print.add deposition).mapError .descent
  | none => return print

def handle (builder : Builder α) (instruction : Instruction α) :
    Builder α × Option (BuildError α) :=
  let ⟨settings, machine, print⟩ := builder
  match machine.run instruction with
  | .error error => (⟨settings, machine, print⟩, some (.unknownCommand error))
  | .ok machine =>
      match collect settings machine print instruction.command with
      | .error error => (⟨settings, machine, print⟩, some error)
      | .ok print => (⟨settings, machine, print⟩, none)

def handleAll (builder : Builder α) :
    List (Instruction α) → Except (BuildError α) (Builder α)
  | [] => .ok builder
  | instruction :: rest =>
      match builder.handle instruction with
      | (_, some error) => .error error
      | (builder, none) => builder.handleAll rest

def padding (builder : Builder α) : α :=
  builder.settings.nozzleDiameter / 2.0

end Builder

end Extrusion
