import Extrusion.Command.Reader
import Extrusion.Text.Lines
import Extrusion.Word.Scan

/-!
# Programs

A program is a text with any number of commands on each of its lines.  Lines
are numbered from one, and the first line that cannot be read ends the
reading.
-/

namespace Extrusion

namespace Program

/-- The most characters that a line may have, its end not counted. -/
def lineLimit : Nat := 256

def isLineEnd (c : Char) : Bool :=
  c = '\n' || c = '\r'

def readLine (skipUnknown : Bool) (lineNumber : Nat) (line : String) :
    Except SyntaxError (List (Instruction Float)) :=
  let body := Text.dropEnd isLineEnd line.toList
  let commands :=
    if lineLimit < body.length then .error (.lineTooLong body.length lineLimit)
    else Command.ofWords skipUnknown (Word.scan (String.ofList body))
  match commands with
  | .ok commands => .ok (commands.map fun command => ⟨lineNumber, command⟩)
  | .error cause => .error (.ofLine lineNumber body cause)

def readLines (skipUnknown : Bool) (lineNumber : Nat) :
    List String → Except SyntaxError (List (Instruction Float))
  | [] => .ok []
  | line :: lines => do
      let here ← readLine skipUnknown lineNumber line
      let later ← readLines skipUnknown (lineNumber + 1) lines
      return here ++ later

def readText (skipUnknown : Bool) (text : String) :
    Except SyntaxError (List (Instruction Float)) :=
  readLines skipUnknown 1 (Text.lines text)

end Program

end Extrusion
