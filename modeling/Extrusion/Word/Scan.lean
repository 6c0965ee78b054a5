import Extrusion.Text
import Extrusion.Word

/-!
# Scanning words

A line loses its comments and blanks, what remains is put in lower case, and
then every letter from a to z opens a word that takes the longest number
literal behind it.  Any other character is passed over.
-/

namespace Extrusion
namespace Scan

/-! ## Comments and blanks -/

def afterClose : List Char → Option (List Char)
  | [] => none
  | c :: cs => if c = ')' then some cs else afterClose cs

theorem length_afterClose {cs rest : List Char} (h : afterClose cs = some rest) :
    rest.length < cs.length := by
  induction cs with
  | nil => simp [afterClose] at h
  | cons c cs ih =>
      unfold afterClose at h
      split at h
      · cases h
        simp
      · have := ih h
        simp
        omega

def afterLine (cs : List Char) : List Char :=
  cs.dropWhile (· ≠ '\n')

theorem length_afterLine_le (cs : List Char) : (afterLine cs).length ≤ cs.length :=
  (List.dropWhile_suffix _).length_le

/-- Drops parenthesised comments that are closed, the rest of a line behind a
semicolon, and blanks. -/
def strip : List Char → List Char
  | [] => []
  | c :: cs =>
      if c = '(' then
        match h : afterClose cs with
        | some rest =>
            have := length_afterClose h
            strip rest
        | none => c :: strip cs
      else if c = ';' then strip (afterLine cs)
      else if Text.isBlank c then strip cs
      else c :: strip cs
termination_by cs => cs.length
decreasing_by
  · simp
    omega
  · simp
  · have := length_afterLine_le cs
    simp
    omega
  · simp
  · simp

/-! ## Lower case -/

/-- The lower case of a character, as far as it matters to a scan: two
characters beyond ASCII have a lower case with a letter from a to z in it, all
others beyond ASCII stay what they are, passed over either way. -/
def lower (c : Char) : List Char :=
  if c = '\u212A' then ['k']
  else if c = '\u0130' then ['i', '\u0307']
  else [c.toLower]

/-! ## Literals and words -/

def splitSign : List Char → List Char × List Char
  | '-' :: cs => (['-'], cs)
  | '+' :: cs => (['+'], cs)
  | cs => ([], cs)

def splitPoint : List Char → List Char × List Char
  | '.' :: cs => (['.'], cs)
  | cs => ([], cs)

/-- The longest literal in front (an optional sign, digits, an optional point,
digits) and what follows it. -/
def splitLiteral (cs : List Char) : List Char × List Char :=
  let (sign, cs) := splitSign cs
  let (whole, cs) := Text.splitDigits cs
  let (point, cs) := splitPoint cs
  let (fraction, cs) := Text.splitDigits cs
  (sign ++ whole ++ point ++ fraction, cs)

theorem splitSign_append (cs : List Char) : (splitSign cs).1 ++ (splitSign cs).2 = cs := by
  unfold splitSign
  split <;> rfl

theorem splitPoint_append (cs : List Char) : (splitPoint cs).1 ++ (splitPoint cs).2 = cs := by
  unfold splitPoint
  split <;> rfl

theorem splitLiteral_append (cs : List Char) :
    (splitLiteral cs).1 ++ (splitLiteral cs).2 = cs := by
  simp only [splitLiteral, List.append_assoc, Text.splitDigits_append, splitPoint_append,
    splitSign_append]

theorem length_splitLiteral_le (cs : List Char) : (splitLiteral cs).2.length ≤ cs.length := by
  have h := congrArg List.length (splitLiteral_append cs)
  simp only [List.length_append] at h
  omega

def words : List Char → List Word
  | [] => []
  | c :: cs =>
      if c.isLower then
        let literal := (splitLiteral cs).1
        ⟨c, if literal = [] then none else some (String.ofList literal)⟩
          :: words (splitLiteral cs).2
      else words cs
termination_by cs => cs.length
decreasing_by
  · have := length_splitLiteral_le cs
    simp
    omega
  · simp

end Scan

def Word.scan (line : String) : List Word :=
  Scan.words ((Scan.strip line.toList).flatMap Scan.lower)

end Extrusion
