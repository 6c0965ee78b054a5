import Extrusion.Command
import Extrusion.Geometry.Spatial

/-!
# The machine

The state of a printer and how each command changes it.  The raw position and
the raw extruder value are what the axes were told to reach; the offsets are
what a set-position command moved the coordinate system by.
-/

namespace Extrusion

structure MachineState (α : Type) where
  position : Point3 α
  offset : Point3 α
  extruder : α
  extruderOffset : α
  feedrate : α
  /-- Of the nozzle, in degrees Celsius. -/
  temperature : α
  positioning : Reference
  extrusion : Reference
  unit : LengthUnit
  deriving BEq, Repr

namespace MachineState

variable {α : Type} [Scalar α]

def initial : MachineState α where
  position := Point3.origin
  offset := Point3.origin
  extruder := 0
  extruderOffset := 0
  feedrate := 40.0
  temperature := 0
  positioning := .absolute
  extrusion := .absolute
  unit := .millimetre

/-- The position in the coordinate system that is in force. -/
def absolutePosition (state : MachineState α) : Point3 α :=
  state.position - state.offset

def absoluteExtruder (state : MachineState α) : α :=
  state.extruder - state.extruderOffset

def unitLength (state : MachineState α) : α :=
  match state.unit with
  | .inch => 25.4
  | .millimetre => 1

/-! ## Moves -/

/-- Where a move to the named coordinates ends.  Relative moves land on whole
micrometres on every axis. -/
def target (state : MachineState α) (x y z : Option α) : Point3 α :=
  let unit := state.unitLength
  match state.positioning with
  | .relative =>
      let step (value : Option α) : α := value.getD 0 * unit
      (state.position + ⟨step x, step y, step z⟩).rounded
  | .absolute =>
      let reach (value : Option α) (current : α) : α :=
        match value with
        | some v => v * unit
        | none => current
      ⟨reach x state.position.x, reach y state.position.y, reach z state.position.z⟩

def fed (state : MachineState α) : Option α → α
  | none => state.extruder
  | some e =>
      match state.extrusion with
      | .relative => state.extruder + e
      | .absolute => e

def move (state : MachineState α) (x y z e f : Option α) : MachineState α :=
  { state with
    position := state.target x y z
    extruder := state.fed e
    feedrate := f.getD state.feedrate }

/-! ## The coordinate system -/

/-- Puts the homed axes to zero and takes their offsets back. -/
def homed (state : MachineState α) (axes : HomeAxes) : MachineState α :=
  let zeroed (named : Bool) (value : α) : α := if axes.isAll || named then 0 else value
  { state with
    position :=
      ⟨zeroed axes.x state.position.x, zeroed axes.y state.position.y,
        zeroed axes.z state.position.z⟩
    offset :=
      ⟨zeroed axes.x state.offset.x, zeroed axes.y state.offset.y,
        zeroed axes.z state.offset.z⟩ }

/-- Moves the offsets so that the current position reads as the given values. -/
def shifted (state : MachineState α) (shift : PositionShift α) : MachineState α :=
  let unit := state.unitLength
  let offsetFor (value : Option α) (raw offset : α) : α :=
    match value with
    | some v => raw - v * unit
    | none => offset
  { state with
    offset :=
      ⟨offsetFor shift.x state.position.x state.offset.x,
        offsetFor shift.y state.position.y state.offset.y,
        offsetFor shift.z state.position.z state.offset.z⟩
    extruderOffset :=
      match shift.e with
      | some e => state.extruder - e
      | none => state.extruderOffset }

def after (state : MachineState α) : Command α → MachineState α
  | .linear m => state.move m.x m.y m.z m.e m.f
  | .arc m => state.move (some m.x) (some m.y) none (some m.e) m.f
  | .home axes => state.homed axes
  | .setPosition shift => state.shifted shift
  | .setUnit unit => { state with unit }
  | .setPositioning reference => { state with positioning := reference }
  | .setExtrusion reference => { state with extrusion := reference }
  | .setTemperature heating => { state with temperature := heating.s }
  | .awaitTemperature heating => { state with temperature := heating.s }
  | .unsupported _ => state

end MachineState

structure UnknownCommand where
  code : Code
  lineNumber : Nat
  deriving DecidableEq, Repr

def UnknownCommand.message (error : UnknownCommand) : String :=
  s!"unknown command {error.code.text} at line {error.lineNumber}"

structure Machine (α : Type) where
  skipUnknown : Bool
  previous : MachineState α
  current : MachineState α
  deriving Repr

namespace Machine

variable {α : Type} [Scalar α]

def new (skipUnknown : Bool) : Machine α :=
  ⟨skipUnknown, .initial, .initial⟩

/-- Runs one instruction.  One that is passed over changes nothing, the
previous state included. -/
def run (machine : Machine α) (instruction : Instruction α) :
    Except UnknownCommand (Machine α) :=
  match instruction.command with
  | .unsupported code =>
      if machine.skipUnknown then .ok machine
      else .error ⟨code, instruction.lineNumber⟩
  | command =>
      .ok { machine with
        previous := machine.current
        current := machine.current.after command }

end Machine

end Extrusion
