import Extrusion.Numeric.Decimal
import Extrusion.Settings
import Extrusion.Text.Lines

/-!
# Settings files

A settings file is a TOML document with at most three keys.  Every line is
blank, a comment, or a key with a number or a truth value; nothing else that
TOML allows could be a setting, so anything else is malformed.
-/

namespace Extrusion

inductive FileFault where
  | unreadable
  | malformed
  deriving DecidableEq, Repr

structure SettingsFile where
  nozzleDiameter : Option Float
  arcMaxError : Option Float
  skipUnknown : Option Bool
  deriving BEq, Repr

namespace SettingsFile

def empty : SettingsFile := ⟨none, none, none⟩

/-! ## Characters -/

def isSpace (c : Char) : Bool :=
  c = ' ' || c = '\t'

def skipSpace (cs : List Char) : List Char :=
  cs.dropWhile isSpace

/-- Characters that may stand in comments and in quoted keys: no control
characters but the tab. -/
def isPrintable (c : Char) : Bool :=
  c = '\t' || (0x20 ≤ c.toNat && c.toNat ≠ 0x7F)

def isLineRest (cs : List Char) : Bool :=
  match skipSpace cs with
  | [] => true
  | '#' :: comment => comment.all isPrintable
  | _ => false

/-! ## Keys -/

def isBareKeyChar (c : Char) : Bool :=
  c.isAlphanum || c = '_' || c = '-'

def hexValue? (c : Char) : Option Nat :=
  if c.isDigit then some (c.toNat - '0'.toNat)
  else if 'a' ≤ c ∧ c ≤ 'f' then some (c.toNat - 'a'.toNat + 10)
  else if 'A' ≤ c ∧ c ≤ 'F' then some (c.toNat - 'A'.toNat + 10)
  else none

def hexChar? (digits : List Char) : Option Char := do
  let values ← digits.mapM hexValue?
  let code := values.foldl (fun n d => 16 * n + d) 0
  if h : code.isValidChar then some (Char.ofNatAux code h) else none

def simpleEscape? : Char → Option Char
  | 'b' => some '\x08'
  | 't' => some '\t'
  | 'n' => some '\n'
  | 'f' => some '\x0c'
  | 'r' => some '\r'
  | 'e' => some '\x1b'
  | '"' => some '"'
  | '\\' => some '\\'
  | _ => none

def hexEscapeLength? : Char → Option Nat
  | 'x' => some 2
  | 'u' => some 4
  | 'U' => some 8
  | _ => none

/-- The text of a quoted key with escapes, behind its opening quote, and what
follows its closing quote. -/
def quotedKey? : List Char → Option (List Char × List Char)
  | [] => none
  | c :: cs =>
      if c = '"' then some ([], cs)
      else if c = '\\' then
        match cs with
        | [] => none
        | letter :: rest =>
            match simpleEscape? letter with
            | some escaped => (quotedKey? rest).map fun (key, cs) => (escaped :: key, cs)
            | none => do
                let length ← hexEscapeLength? letter
                if rest.length < length then none
                else
                  let escaped ← hexChar? (rest.take length)
                  let (key, cs) ← quotedKey? (rest.drop length)
                  return (escaped :: key, cs)
      else if isPrintable c then (quotedKey? cs).map fun (key, cs) => (c :: key, cs)
      else none
termination_by cs => cs.length
decreasing_by
  · exact Nat.lt_succ_of_lt (Nat.lt_succ_self _)
  · rw [List.length_drop]
    exact Nat.lt_succ_of_le (Nat.le_succ_of_le (Nat.sub_le _ _))
  · exact Nat.lt_succ_self _

def key? : List Char → Option (List Char × List Char)
  | '"' :: cs => quotedKey? cs
  | '\'' :: cs =>
      let key := cs.takeWhile (· ≠ '\'')
      match cs.dropWhile (· ≠ '\'') with
      | _ :: rest => if key.all isPrintable then some (key, rest) else none
      | [] => none
  | cs =>
      let key := cs.takeWhile isBareKeyChar
      if key.isEmpty then none else some (key, cs.dropWhile isBareKeyChar)

/-! ## Values -/

/-- Digits behind a first one.  Single underscores may stand between digits and
do not count. -/
def moreDigits (isDigit : Char → Bool) : List Char → List Char × List Char
  | '_' :: c :: cs =>
      if isDigit c then
        let (digits, rest) := moreDigits isDigit cs
        (c :: digits, rest)
      else ([], '_' :: c :: cs)
  | c :: cs =>
      if isDigit c then
        let (digits, rest) := moreDigits isDigit cs
        (c :: digits, rest)
      else ([], c :: cs)
  | [] => ([], [])

def digits? (isDigit : Char → Bool) : List Char → Option (List Char × List Char)
  | c :: cs =>
      if isDigit c then
        let (digits, rest) := moreDigits isDigit cs
        some (c :: digits, rest)
      else none
  | [] => none

def integer? (negative : Bool) (n : Nat) : Option Float :=
  if n < Nat.pow 2 63 ∨ (negative ∧ n = Nat.pow 2 63) ∨ (!negative ∧ n < Nat.pow 2 64) then
    some (Numeric.Decimal.toFloat ⟨negative && n ≠ 0, n, 0⟩)
  else none

/-- An unsigned whole number to a base other than ten, behind its mark. -/
def based? (base : Nat) (cs : List Char) : Option Float := do
  let isDigit (c : Char) : Bool :=
    match hexValue? c with
    | some value => value < base
    | none => false
  let (digits, rest) ← digits? isDigit cs
  if rest.isEmpty then
    integer? false ((digits.filterMap hexValue?).foldl (fun n d => base * n + d) 0)
  else none

def fraction? : List Char → Option (List Char × List Char)
  | '.' :: cs => digits? Char.isDigit cs
  | cs => some ([], cs)

def exponent? : List Char → Option Int
  | [] => some 0
  | c :: cs =>
      if c = 'e' ∨ c = 'E' then do
        let (negative, body) := Numeric.Decimal.splitSign cs
        let (digits, rest) ← digits? Char.isDigit body
        if rest.isEmpty then
          let n := Text.ofDigits digits
          return if negative then -(n : Int) else n
        else none
      else none

/-- A decimal number: a whole one without leading zeros, or one with a fraction
or an exponent that is not too large. -/
def decimal? (negative : Bool) (cs : List Char) : Option Float := do
  let (whole, rest) ← digits? Char.isDigit cs
  if 1 < whole.length ∧ whole.head? = some '0' then none
  else if rest.isEmpty then integer? negative (Text.ofDigits whole)
  else
    let (fraction, rest) ← fraction? rest
    let exponent ← exponent? rest
    let value := Numeric.Decimal.toFloat
      ⟨negative, Text.ofDigits (whole ++ fraction), exponent - fraction.length⟩
    if value.isInf then none else some value

def number? (cs : List Char) : Option Float :=
  let (negative, body) := Numeric.Decimal.splitSign cs
  if body = ['i', 'n', 'f'] then some (Numeric.Double.infinity negative)
  else if body = ['n', 'a', 'n'] then some Numeric.Double.quietNaN
  else
    match cs with
    | '0' :: 'x' :: digits => based? 16 digits
    | '0' :: 'o' :: digits => based? 8 digits
    | '0' :: 'b' :: digits => based? 2 digits
    | _ => decimal? negative body

def truth? (cs : List Char) : Option Bool :=
  if cs = ['t', 'r', 'u', 'e'] then some true
  else if cs = ['f', 'a', 'l', 's', 'e'] then some false
  else none

/-! ## Lines -/

/-- Adds a key with its value.  A key counts once, and each has its type. -/
def assign? (file : SettingsFile) (key value : List Char) : Option SettingsFile :=
  let key := String.ofList key
  if key = "nozzle_diameter" ∧ file.nozzleDiameter.isNone then
    (number? value).map fun x => { file with nozzleDiameter := some x }
  else if key = "arc_max_error" ∧ file.arcMaxError.isNone then
    (number? value).map fun x => { file with arcMaxError := some x }
  else if key = "skip_unknown" ∧ file.skipUnknown.isNone then
    (truth? value).map fun b => { file with skipUnknown := some b }
  else none

def isValueEnd (c : Char) : Bool :=
  isSpace c || c = '#'

def readLine? (file : SettingsFile) (line : List Char) : Option SettingsFile :=
  if isLineRest line then some file
  else do
    let (key, rest) ← key? (skipSpace line)
    match skipSpace rest with
    | '=' :: rest =>
        let rest := skipSpace rest
        if isLineRest (rest.dropWhile (!isValueEnd ·)) then
          file.assign? key (rest.takeWhile (!isValueEnd ·))
        else none
    | _ => none

def dropMark (text : String) : String :=
  match text.toList with
  | '\uFEFF' :: cs => String.ofList cs
  | _ => text

def ofText (text : String) : Except FileFault SettingsFile :=
  match (Text.lines (dropMark text)).foldlM (fun file line => file.readLine? line.toList) empty with
  | some file => .ok file
  | none => .error .malformed

/-- The settings of a file by its content, which is missing where it cannot be
read. -/
def ofContent : Option String → Except FileFault SettingsFile
  | some text => ofText text
  | none => .error .unreadable

end SettingsFile

namespace BuildSettings

def apply (settings : BuildSettings Float) (file : SettingsFile) : BuildSettings Float where
  nozzleDiameter := file.nozzleDiameter.getD settings.nozzleDiameter
  arcMaxError := file.arcMaxError.getD settings.arcMaxError
  skipUnknown := file.skipUnknown.getD settings.skipUnknown

end BuildSettings

end Extrusion
