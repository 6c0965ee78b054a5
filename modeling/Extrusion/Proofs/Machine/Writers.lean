import Extrusion.Proofs.Builder.Collection
import Extrusion.Proofs.Machine.Moves
import Extrusion.Proofs.Results

/-!
# The last writer

Each part of a machine state is written by a few kinds of commands, and no other
command touches it.  After a run it is therefore what its last writer made of the
state that it found, or what it was where nothing wrote it.
-/

namespace Extrusion

variable {α β : Type}

def HomeAxes.covers (axes : HomeAxes) : Axis → Bool
  | .x => axes.isAll || axes.x
  | .y => axes.isAll || axes.y
  | .z => axes.isAll || axes.z

def PositionShift.along (shift : PositionShift α) : Axis → Option α
  | .x => shift.x
  | .y => shift.y
  | .z => shift.z

variable [Scalar α]

namespace MachineState

variable (state : MachineState α)

theorem along_position_homed (axes : HomeAxes) (axis : Axis) :
    (state.homed axes).position.along axis =
      if axes.covers axis then 0 else state.position.along axis := by
  cases axis <;> rfl

theorem along_offset_homed (axes : HomeAxes) (axis : Axis) :
    (state.homed axes).offset.along axis =
      if axes.covers axis then 0 else state.offset.along axis := by
  cases axis <;> rfl

theorem along_offset_shifted (shift : PositionShift α) (axis : Axis) :
    (state.shifted shift).offset.along axis =
      match shift.along axis with
      | some value => state.position.along axis - value * state.unitLength
      | none => state.offset.along axis := by
  cases axis <;> rfl

end MachineState

/-!
# Parts of a state
-/

/-- A part of the machine state, and what each command writes to it, computed from
the state that the command finds. -/
structure StatePart (α β : Type) [Scalar α] where
  read : MachineState α → β
  write : Command α → Option (MachineState α → β)
  read_after : ∀ state command, read (state.after command) =
    match write command with
    | some value => value state
    | none => read state

namespace StatePart

def temperature : StatePart α α where
  read := MachineState.temperature
  write
    | .setTemperature heating => some fun _ => heating.s
    | .awaitTemperature heating => some fun _ => heating.s
    | _ => none
  read_after := by
    intro state command
    cases command <;> rfl

def feedrate : StatePart α α where
  read := MachineState.feedrate
  write
    | .linear move => move.f.map fun f _ => f
    | .arc move => move.f.map fun f _ => f
    | _ => none
  read_after := by
    intro state command
    cases command with
    | linear move => rcases move with ⟨rapid, x, y, z, e, _ | f, h, r, s⟩ <;> rfl
    | arc move => rcases move with ⟨rotation, x, y, i, j, e, _ | f⟩ <;> rfl
    | _ => rfl

def positioning : StatePart α Reference where
  read := MachineState.positioning
  write
    | .setPositioning reference => some fun _ => reference
    | _ => none
  read_after := by
    intro state command
    cases command <;> rfl

def extrusion : StatePart α Reference where
  read := MachineState.extrusion
  write
    | .setExtrusion reference => some fun _ => reference
    | _ => none
  read_after := by
    intro state command
    cases command <;> rfl

def unit : StatePart α LengthUnit where
  read := MachineState.unit
  write
    | .setUnit unit => some fun _ => unit
    | _ => none
  read_after := by
    intro state command
    cases command <;> rfl

/-- The offset of an axis.  Homing takes it back; a shift makes the raw coordinate read
as the given value, in millimetres. -/
def offset (axis : Axis) : StatePart α α where
  read state := state.offset.along axis
  write
    | .home axes => if axes.covers axis then some fun _ => 0 else none
    | .setPosition shift => (shift.along axis).map fun value state =>
        state.position.along axis - value * state.unitLength
    | _ => none
  read_after := by
    intro state command
    cases command with
    | home axes =>
        refine (state.along_offset_homed axes axis).trans ?_
        dsimp only
        cases axes.covers axis <;> rfl
    | setPosition shift =>
        refine (state.along_offset_shifted shift axis).trans ?_
        dsimp only
        cases shift.along axis <;> rfl
    | _ => rfl

def extruderOffset : StatePart α α where
  read := MachineState.extruderOffset
  write
    | .setPosition shift => shift.e.map fun e state => state.extruder - e
    | _ => none
  read_after := by
    intro state command
    cases command with
    | setPosition shift => rcases shift with ⟨x, y, z, _ | e⟩ <;> rfl
    | _ => rfl

def extruder : StatePart α α where
  read := MachineState.extruder
  write
    | .linear move => move.e.map fun e state => state.fed (some e)
    | .arc move => some fun state => state.fed (some move.e)
    | _ => none
  read_after := by
    intro state command
    cases command with
    | linear move => rcases move with ⟨rapid, x, y, z, _ | e, f, h, r, s⟩ <;> rfl
    | _ => rfl

/-- The raw coordinate of an axis.  Every move writes it, also one that does not name
the axis. -/
def position (axis : Axis) : StatePart α α where
  read state := state.position.along axis
  write
    | .linear move => some fun state => state.reached axis ((Command.linear move).named axis)
    | .arc move => some fun state => state.reached axis ((Command.arc move).named axis)
    | .home axes => if axes.covers axis then some fun _ => 0 else none
    | _ => none
  read_after := by
    intro state command
    cases command with
    | linear move => exact state.along_position_after rfl axis
    | arc move => exact state.along_position_after rfl axis
    | home axes =>
        refine (state.along_position_homed axes axis).trans ?_
        dsimp only
        cases axes.covers axis <;> rfl
    | _ => rfl

/-!
# Runs
-/

variable (part : StatePart α β) {state : MachineState α}
  {instructions before later : List (Instruction α)} {writer : Instruction α}
  {value : MachineState α → β}

def Unwritten (instructions : List (Instruction α)) : Prop :=
  ∀ instruction ∈ instructions, part.write instruction.command = none

theorem read_of_unwritten (h : part.Unwritten instructions) :
    part.read (state.afterAll instructions) = part.read state := by
  induction instructions generalizing state with
  | nil => rfl
  | cons instruction rest ih =>
      rcases List.forall_mem_cons.mp h with ⟨hhere, hrest⟩
      have hstep := part.read_after state instruction.command
      rw [hhere] at hstep
      exact (ih hrest).trans hstep

theorem read_of_last (hwriter : part.write writer.command = some value)
    (hlater : part.Unwritten later) :
    part.read (state.afterAll (before ++ writer :: later)) = value (state.afterAll before) := by
  have hsplit : state.afterAll (before ++ writer :: later) =
      ((state.afterAll before).after writer.command).afterAll later := List.foldl_append
  have hstep := part.read_after (state.afterAll before) writer.command
  rw [hwriter] at hstep
  rw [hsplit, part.read_of_unwritten hlater, hstep]

end StatePart

/-!
# Runs of a machine
-/

namespace Machine

variable {machine final : Machine α} {instructions : List (Instruction α)}

def runAll (machine : Machine α) (instructions : List (Instruction α)) :
    Except UnknownCommand (Machine α) :=
  instructions.foldlM run machine

theorem runAll_cons_eq_ok_iff {instruction : Instruction α} {rest : List (Instruction α)} :
    machine.runAll (instruction :: rest) = .ok final ↔
      ∃ next, machine.run instruction = .ok next ∧ next.runAll rest = .ok final := by
  unfold runAll
  rw [List.foldlM_cons]
  exact bind_eq_ok_iff

theorem current_of_runAll (h : machine.runAll instructions = .ok final) :
    final.current = machine.current.afterAll instructions := by
  induction instructions generalizing machine with
  | nil =>
      cases h
      rfl
  | cons instruction rest ih =>
      rcases runAll_cons_eq_ok_iff.mp h with ⟨next, hnext, hrest⟩
      rw [ih hrest, Builder.current_of_run hnext]
      rfl

theorem exists_of_runAll_append {before later : List (Instruction α)}
    (h : machine.runAll (before ++ later) = .ok final) :
    ∃ found, machine.runAll before = .ok found ∧ found.runAll later = .ok final := by
  unfold runAll at h
  rw [List.foldlM_append] at h
  exact bind_eq_ok_iff.mp h

/-- What a run makes of a part of the state: what its last writer made of the state
that it found. -/
structure Decides (machine : Machine α) (instructions : List (Instruction α))
    (final : Machine α) (part : StatePart α β) : Prop where
  kept : part.Unwritten instructions → part.read final.current = part.read machine.current
  last : ∀ before writer later value, instructions = before ++ writer :: later →
    part.write writer.command = some value → part.Unwritten later →
      ∃ found, machine.runAll before = .ok found ∧
        part.read final.current = value found.current

theorem decides_of_runAll (h : machine.runAll instructions = .ok final)
    (part : StatePart α β) : machine.Decides instructions final part where
  kept := by
    intro hunwritten
    rw [current_of_runAll h]
    exact part.read_of_unwritten hunwritten
  last := by
    rintro before writer later value rfl hwriter hlater
    rcases exists_of_runAll_append h with ⟨found, hfound, _⟩
    refine ⟨found, hfound, ?_⟩
    rw [current_of_runAll h, current_of_runAll hfound]
    exact part.read_of_last hwriter hlater

structure LastWriters (machine : Machine α) (instructions : List (Instruction α))
    (final : Machine α) : Prop where
  temperature : machine.Decides instructions final .temperature
  feedrate : machine.Decides instructions final .feedrate
  positioning : machine.Decides instructions final .positioning
  extrusion : machine.Decides instructions final .extrusion
  unit : machine.Decides instructions final .unit
  offset : ∀ axis, machine.Decides instructions final (.offset axis)
  extruderOffset : machine.Decides instructions final .extruderOffset
  extruder : machine.Decides instructions final .extruder
  position : ∀ axis, machine.Decides instructions final (.position axis)

theorem lastWriters_of_runAll (h : machine.runAll instructions = .ok final) :
    LastWriters machine instructions final where
  temperature := decides_of_runAll h .temperature
  feedrate := decides_of_runAll h .feedrate
  positioning := decides_of_runAll h .positioning
  extrusion := decides_of_runAll h .extrusion
  unit := decides_of_runAll h .unit
  offset axis := decides_of_runAll h (.offset axis)
  extruderOffset := decides_of_runAll h .extruderOffset
  extruder := decides_of_runAll h .extruder
  position axis := decides_of_runAll h (.position axis)

def shifting : List (Instruction Float) :=
  [⟨1, .setTemperature ⟨200, none, none⟩⟩, .straight 2 (some 10) (some 5) (some 3),
    ⟨3, .setUnit .inch⟩, ⟨4, .setPosition ⟨some 2, none, some 1, some 0.5⟩⟩,
    .straight 5 (some 1) (some 1) none, ⟨6, .home ⟨false, false, true⟩⟩]

theorem lastWriters_of_shifting :
    ∃ final, (new false).runAll shifting = .ok final ∧ LastWriters (new false) shifting final ∧
      (final.current.temperature == 200) = true ∧
      (final.current.offset.x == 10 - 2 * 25.4) = true ∧
      (final.current.offset.z == 0) = true ∧
      (final.current.extruderOffset == 3 - 0.5) = true := by
  refine ⟨_, rfl, lastWriters_of_runAll rfl, ?_, ?_, ?_, ?_⟩
  · decide +kernel
  · decide +kernel
  · decide +kernel
  · decide +kernel

end Machine
end Extrusion
