import Extrusion.Command
import Extrusion.Numeric.Layout

/-!
# Writing commands

A command is written as words with a space between them: its code, then the
axes it names, or its numbers with the fewest digits that read back.
-/

namespace Extrusion
namespace Command

def axisWords (axes : HomeAxes) : List Word :=
  [('x', axes.x), ('y', axes.y), ('z', axes.z)].filterMap fun (letter, named) =>
    if named then some ⟨letter, none⟩ else none

def numberWord (letter : Char) (x : Float) : Word :=
  ⟨letter, some (Numeric.NumberStyle.plain.text x)⟩

def parameterWords : Command Float → List Word
  | .home axes => axisWords axes
  | command => command.fields.filterMap fun (letter, value) => value.map (numberWord letter)

def toWords (command : Command Float) : List Word :=
  command.code.toWord :: command.parameterWords

def text (command : Command Float) : String :=
  " ".intercalate (command.toWords.map Word.text)

end Command
end Extrusion
