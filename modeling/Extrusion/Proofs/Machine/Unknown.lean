import Extrusion.Machine

/-!
# Unknown commands

A command of no form has only its code.  A machine that passes over such
commands stays as it is, the state before the current one included; any other
machine names the code and the line that it does not know.
-/

namespace Extrusion

variable {α : Type}

def Command.unknownCode? : Command α → Option Code
  | .unsupported code => some code
  | _ => none

def Instruction.unknown? (instruction : Instruction α) : Option UnknownCommand :=
  instruction.command.unknownCode?.map fun code => ⟨code, instruction.lineNumber⟩

def firstUnknown? (instructions : List (Instruction α)) : Option UnknownCommand :=
  instructions.findSome? Instruction.unknown?

theorem Command.unknownCode_eq_none_iff {command : Command α} :
    command.unknownCode? = none ↔ ∀ code, command ≠ .unsupported code := by
  cases command <;> simp [unknownCode?]

theorem Instruction.unknown_eq_none_iff {instruction : Instruction α} :
    instruction.unknown? = none ↔ instruction.command.unknownCode? = none :=
  Option.map_eq_none_iff

theorem firstUnknown_eq_none_iff {instructions : List (Instruction α)} :
    firstUnknown? instructions = none ↔
      ∀ instruction ∈ instructions, instruction.unknown? = none :=
  List.findSome?_eq_none_iff

theorem firstUnknown_append (front back : List (Instruction α)) :
    firstUnknown? (front ++ back) = (firstUnknown? front).or (firstUnknown? back) :=
  List.findSome?_append

end Extrusion
