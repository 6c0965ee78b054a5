import Extrusion.Fault
import Extrusion.Word

/-!
# Grouping words

The words of a line fall into groups: a word that opens a command and the
parameter words behind it.
-/

namespace Extrusion

structure WordGroup where
  head : Word
  parameters : List Word
  deriving DecidableEq, Repr

namespace WordGroup

def toWords (group : WordGroup) : List Word :=
  group.head :: group.parameters

def isParameter (word : Word) : Bool :=
  word.role = .parameter

def ofWords : List Word → Except LineFault (List WordGroup)
  | [] => .ok []
  | word :: words =>
      match word.role with
      | .command => do
          let groups ← ofWords (words.dropWhile isParameter)
          return ⟨word, words.takeWhile isParameter⟩ :: groups
      | .parameter => .error (.parameterBeforeCommand word.letter)
      | .unrecognized => .error (.unrecognizedLetter word.letter)
termination_by words => words.length
decreasing_by
  have := (List.dropWhile_suffix isParameter (l := words)).length_le
  simp
  omega

end WordGroup

end Extrusion
