import Extrusion.Command.Form

/-!
# Commands

What a program tells the machine to do.  A command holds the values it was
given, in the unit and the coordinate system that are in force when it runs.
-/

namespace Extrusion

inductive Rotation where
  | clockwise
  | counterclockwise
  deriving DecidableEq, Repr

inductive LengthUnit where
  | inch
  | millimetre
  deriving DecidableEq, Repr

inductive Reference where
  | absolute
  | relative
  deriving DecidableEq, Repr

/-- A straight move.  A rapid one is written with another code and is no
different otherwise. -/
structure LinearMove (α : Type) where
  rapid : Bool
  x : Option α
  y : Option α
  z : Option α
  e : Option α
  f : Option α
  h : Option α
  r : Option α
  s : Option α
  deriving DecidableEq, BEq, Repr

/-- An arc in the plane of the layer.  The pivot is given relative to the
start. -/
structure ArcMove (α : Type) where
  rotation : Rotation
  x : α
  y : α
  i : α
  j : α
  e : α
  f : Option α
  deriving DecidableEq, BEq, Repr

/-- The axes to home.  None at all means every axis. -/
structure HomeAxes where
  x : Bool
  y : Bool
  z : Bool
  deriving DecidableEq, Repr

structure PositionShift (α : Type) where
  x : Option α
  y : Option α
  z : Option α
  e : Option α
  deriving DecidableEq, BEq, Repr

structure Heating (α : Type) where
  s : α
  r : Option α
  d : Option α
  deriving DecidableEq, BEq, Repr

structure HeatingWait (α : Type) where
  s : α
  r : Option α
  t : Option α
  deriving DecidableEq, BEq, Repr

inductive Command (α : Type) where
  | linear (move : LinearMove α)
  | arc (move : ArcMove α)
  | home (axes : HomeAxes)
  | setPosition (shift : PositionShift α)
  | setUnit (unit : LengthUnit)
  | setPositioning (reference : Reference)
  | setExtrusion (reference : Reference)
  | setTemperature (heating : Heating α)
  | awaitTemperature (heating : HeatingWait α)
  /-- A code outside the supported ones, kept without its parameters. -/
  | unsupported (code : Code)
  deriving DecidableEq, BEq, Repr

namespace HomeAxes

def isAll (axes : HomeAxes) : Bool :=
  !(axes.x || axes.y || axes.z)

end HomeAxes

namespace Command

variable {α : Type}

def formOrCode : Command α → Form ⊕ Code
  | .linear move => .inl (if move.rapid then .rapidMove else .linearMove)
  | .arc move =>
      match move.rotation with
      | .clockwise => .inl .clockwiseArc
      | .counterclockwise => .inl .counterclockwiseArc
  | .home _ => .inl .home
  | .setPosition _ => .inl .setPosition
  | .setUnit .inch => .inl .inches
  | .setUnit .millimetre => .inl .millimetres
  | .setPositioning .absolute => .inl .absolutePositioning
  | .setPositioning .relative => .inl .relativePositioning
  | .setExtrusion .absolute => .inl .absoluteExtrusion
  | .setExtrusion .relative => .inl .relativeExtrusion
  | .setTemperature _ => .inl .setTemperature
  | .awaitTemperature _ => .inl .awaitTemperature
  | .unsupported code => .inr code

def isMove : Command α → Bool
  | .linear _ | .arc _ => true
  | _ => false

def code (command : Command α) : Code :=
  match command.formOrCode with
  | .inl form => form.code
  | .inr code => code

/-- The numbers of a command by letter, in the order in which they are
written. -/
def fields : Command α → List (Char × Option α)
  | .linear m =>
      [('x', m.x), ('y', m.y), ('z', m.z), ('e', m.e), ('f', m.f), ('h', m.h), ('r', m.r),
        ('s', m.s)]
  | .arc m =>
      [('x', some m.x), ('y', some m.y), ('i', some m.i), ('j', some m.j), ('e', some m.e),
        ('f', m.f)]
  | .setPosition p => [('x', p.x), ('y', p.y), ('z', p.z), ('e', p.e)]
  | .setTemperature t => [('s', some t.s), ('r', t.r), ('d', t.d)]
  | .awaitTemperature t => [('s', some t.s), ('r', t.r), ('t', t.t)]
  | _ => []

end Command

structure Instruction (α : Type) where
  lineNumber : Nat
  command : Command α
  deriving DecidableEq, BEq, Repr

end Extrusion
