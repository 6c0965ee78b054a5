import Extrusion.Command.Form
import Extrusion.Text

/-!
# Faults of a line

Why a line of a program cannot be read, and the message that says so.
-/

namespace Extrusion

inductive LineFault where
  | lineTooLong (length limit : Nat)
  | unrecognizedLetter (letter : Char)
  | parameterBeforeCommand (letter : Char)
  | malformedNumber (letter : Char) (literal : String)
  | missingParameter (form : Form)
  | invalidParameter (code : Code) (letter : Char)
  | unsupportedCommand (code : Code)
  deriving DecidableEq, Repr

namespace LineFault

def message : LineFault → String
  | .lineTooLong length limit =>
      s!"line length must not be greater than {limit} (is {length})"
  | .unrecognizedLetter letter => s!"unrecognized G-code field letter '{letter}'"
  | .parameterBeforeCommand letter =>
      s!"parameter field '{letter}' specified without a previous command field"
  | .malformedNumber letter literal =>
      s!"malformed number literal '{literal}' for field '{letter}'"
  | .missingParameter form => s!"{form.code.text} requires {form.requirement}"
  | .invalidParameter code letter =>
      s!"unrecognized parameter letter for {code.text}: '{letter}'"
  | .unsupportedCommand code => s!"unsupported command: {code.text}"

end LineFault

structure SyntaxError where
  lineNumber : Nat
  /-- The line without blanks at its ends. -/
  line : String
  cause : LineFault
  deriving DecidableEq, Repr

namespace SyntaxError

def ofLine (lineNumber : Nat) (line : List Char) (cause : LineFault) : SyntaxError :=
  ⟨lineNumber, String.ofList (Text.trim line), cause⟩

def message (error : SyntaxError) : String :=
  s!"G-code syntax error at line {error.lineNumber}: {error.cause.message}"

def markdown (error : SyntaxError) : String :=
  s!"G-code syntax error at line {error.lineNumber}:\n\n" ++ "`" ++ error.line ++ "`"
    ++ "\n\n" ++ error.cause.message

end SyntaxError

end Extrusion
