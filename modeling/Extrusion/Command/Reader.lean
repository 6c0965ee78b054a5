import Extrusion.Command
import Extrusion.Fault
import Extrusion.Numeric.Decimal
import Extrusion.Word.Group

/-!
# Reading commands

A group of words becomes a command: its code names a form, its parameters must
be among the letters of the form and carry numbers, and the form says which of
them it needs.  Codes of no form are kept or refused.
-/

namespace Extrusion

/-- Numbers by letter.  Of several for one letter the last counts. -/
structure Parameters (α : Type) where
  /-- The assignments, the last one first. -/
  assignments : List (Char × α)
  deriving Repr

namespace Parameters

variable {α : Type}

def empty : Parameters α := ⟨[]⟩

def insert (parameters : Parameters α) (letter : Char) (value : α) : Parameters α :=
  ⟨(letter, value) :: parameters.assignments⟩

def get? (parameters : Parameters α) (letter : Char) : Option α :=
  parameters.assignments.lookup letter

def isEmpty (parameters : Parameters α) : Bool :=
  parameters.assignments.isEmpty

def checkAllowed (code : Code) (allowed : List Char) (word : Word) : Except LineFault Unit :=
  if allowed.contains word.letter then .ok () else .error (.invalidParameter code word.letter)

def readNumber (word : Word) : Except LineFault Float :=
  match Numeric.readFloat? word.literalText with
  | some value => .ok value
  | none => .error (.malformedNumber word.letter word.literalText)

def read (code : Code) (allowed : List Char) (words : List Word) :
    Except LineFault (Parameters Float) :=
  words.foldlM (fun parameters word => do
    checkAllowed code allowed word
    let value ← readNumber word
    return parameters.insert word.letter value) empty

end Parameters

namespace Command

variable {α : Type}

def linearOf (form : Form) (rapid : Bool) (p : Parameters α) :
    Except LineFault (Command α) :=
  if p.isEmpty then .error (.missingParameter form)
  else .ok (.linear
    ⟨rapid, p.get? 'x', p.get? 'y', p.get? 'z', p.get? 'e', p.get? 'f', p.get? 'h',
      p.get? 'r', p.get? 's'⟩)

def arcOf (form : Form) (rotation : Rotation) (p : Parameters α) :
    Except LineFault (Command α) :=
  match p.get? 'x', p.get? 'y', p.get? 'i', p.get? 'j', p.get? 'e' with
  | some x, some y, some i, some j, some e => .ok (.arc ⟨rotation, x, y, i, j, e, p.get? 'f'⟩)
  | _, _, _, _, _ => .error (.missingParameter form)

/-- The command of a form with given parameters.  Parameters that the form
does not take are passed over. -/
def ofParameters (form : Form) (p : Parameters α) : Except LineFault (Command α) :=
  match form with
  | .rapidMove => linearOf form true p
  | .linearMove => linearOf form false p
  | .clockwiseArc => arcOf form .clockwise p
  | .counterclockwiseArc => arcOf form .counterclockwise p
  | .inches => .ok (.setUnit .inch)
  | .millimetres => .ok (.setUnit .millimetre)
  | .home => .ok (.home ⟨(p.get? 'x').isSome, (p.get? 'y').isSome, (p.get? 'z').isSome⟩)
  | .absolutePositioning => .ok (.setPositioning .absolute)
  | .relativePositioning => .ok (.setPositioning .relative)
  | .setPosition =>
      if p.isEmpty then .error (.missingParameter form)
      else .ok (.setPosition ⟨p.get? 'x', p.get? 'y', p.get? 'z', p.get? 'e'⟩)
  | .absoluteExtrusion => .ok (.setExtrusion .absolute)
  | .relativeExtrusion => .ok (.setExtrusion .relative)
  | .setTemperature =>
      match p.get? 's' with
      | some s => .ok (.setTemperature ⟨s, p.get? 'r', p.get? 'd'⟩)
      | none => .error (.missingParameter form)
  | .awaitTemperature =>
      match p.get? 's' with
      | some s => .ok (.awaitTemperature ⟨s, p.get? 'r', p.get? 't'⟩)
      | none => .error (.missingParameter form)

/-- A homing command only looks at which letters are there. -/
def readHome (code : Code) (words : List Word) : Except LineFault (Command α) := do
  words.forM (Parameters.checkAllowed code Form.home.parameters)
  let named (letter : Char) : Bool := words.any fun word => word.letter == letter
  return .home ⟨named 'x', named 'y', named 'z'⟩

def ofGroup (skipUnknown : Bool) (group : WordGroup) : Except LineFault (Command Float) :=
  let code := Code.ofWord group.head
  match Form.ofCode? code with
  | some .home => readHome code group.parameters
  | some form => do
      let parameters ← Parameters.read code form.parameters group.parameters
      ofParameters form parameters
  | none =>
      if skipUnknown then .ok (.unsupported code) else .error (.unsupportedCommand code)

def ofWords (skipUnknown : Bool) (words : List Word) :
    Except LineFault (List (Command Float)) := do
  let groups ← WordGroup.ofWords words
  groups.mapM (ofGroup skipUnknown)

end Command
end Extrusion
