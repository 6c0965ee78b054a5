import Extrusion.Text

/-!
# Words

A program is written in words: a letter that names what the word is about, and
an optional number literal.  Some letters open a command, others can only
follow one.
-/

namespace Extrusion

inductive Role where
  | command
  | parameter
  | unrecognized
  deriving DecidableEq, Repr

def commandLetters : List Char := ['g', 'm', 't', 'n', 'd']

def parameterLetters : List Char := ['x', 'y', 'z', 'i', 'j', 'e', 'f', 'h', 'r', 's']

/-- A letter and, unless it stands alone, a number literal as written. -/
structure Word where
  letter : Char
  literal : Option String
  deriving DecidableEq, Repr

namespace Word

def role (word : Word) : Role :=
  if commandLetters.contains word.letter then .command
  else if parameterLetters.contains word.letter then .parameter
  else .unrecognized

def literalText (word : Word) : String :=
  word.literal.getD ""

def text (word : Word) : String :=
  String.ofList (word.letter.toUpper :: word.literalText.toList)

end Word

structure Code where
  letter : Char
  literal : String
  deriving DecidableEq, Repr

namespace Code

def ofWord (word : Word) : Code :=
  ⟨word.letter, word.literalText⟩

def toWord (code : Code) : Word :=
  ⟨code.letter, if code.literal = "" then none else some code.literal⟩

def text (code : Code) : String :=
  code.toWord.text

/-- The number of a code whose literal is all digits and stays below `2 ^ 32`.
Leading zeros do not count. -/
def number? (code : Code) : Option Nat :=
  let digits := code.literal.toList
  let number := Text.ofDigits digits
  if digits ≠ [] ∧ digits.all Char.isDigit ∧ number < Nat.pow 2 32 then some number else none

end Code

end Extrusion
