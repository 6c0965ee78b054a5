import Extrusion.Failure
import Extrusion.Program

/-!
# Instruction streams

A program that is read line by line.  Each step gives the next instruction or
the failure that ends the stream; lines without commands are passed over.
-/

namespace Extrusion

abbrev StreamItem := Except (Failure Float) (Instruction Float)

structure InstructionStream where
  skipUnknown : Bool
  lines : List (List UInt8)
  lineNumber : Nat
  pending : List (Instruction Float)
  finished : Bool

namespace InstructionStream

def ofBytes (skipUnknown : Bool) (bytes : List UInt8) : InstructionStream :=
  ⟨skipUnknown, Text.byteLines bytes, 0, [], false⟩

def advance (skipUnknown : Bool) (lineNumber : Nat) :
    List (List UInt8) → Option StreamItem × InstructionStream
  | [] => (none, ⟨skipUnknown, [], lineNumber, [], true⟩)
  | bytes :: lines =>
      match Text.decode? bytes with
      | none =>
          (some (.error (.unreadable .notText)), ⟨skipUnknown, lines, lineNumber, [], true⟩)
      | some line =>
          match Program.readLine skipUnknown (lineNumber + 1) line with
          | .error error =>
              (some (.error (.malformed error)),
                ⟨skipUnknown, lines, lineNumber + 1, [], true⟩)
          | .ok [] => advance skipUnknown (lineNumber + 1) lines
          | .ok (instruction :: pending) =>
              (some (.ok instruction), ⟨skipUnknown, lines, lineNumber + 1, pending, false⟩)

def next (stream : InstructionStream) : Option StreamItem × InstructionStream :=
  match stream.pending with
  | instruction :: pending => (some (.ok instruction), { stream with pending })
  | [] =>
      if stream.finished then (none, stream)
      else advance stream.skipUnknown stream.lineNumber stream.lines

theorem length_lines_advance {skipUnknown : Bool} {lineNumber : Nat}
    {lines : List (List UInt8)} {item : StreamItem} {stream : InstructionStream}
    (h : advance skipUnknown lineNumber lines = (some item, stream)) :
    stream.lines.length < lines.length := by
  induction lines generalizing lineNumber with
  | nil => simp [advance] at h
  | cons bytes lines ih =>
      unfold advance at h
      split at h
      · cases h
        simp
      · split at h
        · cases h
          simp
        · have := ih h
          simp
          omega
        · cases h
          simp

theorem next_decreases {stream rest : InstructionStream} {item : StreamItem}
    (h : stream.next = (some item, rest)) :
    Prod.Lex (· < ·) (· < ·) (rest.lines.length, rest.pending.length)
      (stream.lines.length, stream.pending.length) := by
  unfold next at h
  split at h
  · rename_i instruction pending hpending
    cases h
    simp [hpending, Prod.lex_def]
  · split at h
    · simp at h
    · exact .left _ _ (length_lines_advance h)

/-- All items, each with the number of lines read when it was given, and the
stream at its end. -/
def run (stream : InstructionStream) : List (StreamItem × Nat) × InstructionStream :=
  match _ : stream.next with
  | (none, rest) => ([], rest)
  | (some item, rest) =>
      let (items, last) := run rest
      ((item, rest.lineNumber) :: items, last)
termination_by (stream.lines.length, stream.pending.length)
decreasing_by exact next_decreases ‹_›

def items (stream : InstructionStream) : List StreamItem :=
  stream.run.1.map (·.1)

end InstructionStream

namespace Program

def readBytes (skipUnknown : Bool) (bytes : List UInt8) :
    Except (Failure Float) (List (Instruction Float)) :=
  (InstructionStream.ofBytes skipUnknown bytes).items.mapM id

end Program

end Extrusion
