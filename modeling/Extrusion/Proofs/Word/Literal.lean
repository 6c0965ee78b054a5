import Mathlib
import Extrusion.Numeric.Layout
import Extrusion.Proofs.Numeric.Decimal
import Extrusion.Word.Scan

/-!
# Number literals

What a scan takes for a literal: a sign, digits, and a point with more digits,
each of which may be missing.  A literal denotes a number as soon as it has a
digit, and a short one denotes a finite double.  The plain text of a finite
double is a literal of it.
-/

namespace Extrusion

namespace Text

/-!
## Characters
-/

theorem of_ascii {p : Char → Prop} (h : ∀ n : Fin 128, p (Char.ofNat n)) {c : Char}
    (hc : c.toNat < 128) : p c := by
  have hp := h ⟨c.toNat, hc⟩
  rwa [Char.ofNat_toNat] at hp

theorem toNat_lt_of_isDigit {c : Char} (h : c.isDigit = true) : c.toNat < 128 := by
  have hle : c.toNat ≤ '9'.toNat := (Char.isDigit_iff_toNat.mp h).2
  exact Nat.lt_of_le_of_lt hle (by decide)

theorem digitChar_of_isDigit {c : Char} (h : c.isDigit = true) :
    ofDigits [c] < 10 ∧ Nat.digitChar (ofDigits [c]) = c :=
  of_ascii (p := fun c => c.isDigit = true →
    ofDigits [c] < 10 ∧ Nat.digitChar (ofDigits [c]) = c) (by decide) (toNat_lt_of_isDigit h) h

/-!
## Runs of digits
-/

theorem splitDigits_of_digits {digits rest : List Char}
    (hdigits : ∀ c ∈ digits, c.isDigit = true) (hrest : ∀ c ∈ rest.head?, c.isDigit = false) :
    splitDigits (digits ++ rest) = (digits, rest) := by
  have htake : rest.takeWhile Char.isDigit = [] := by
    cases rest with
    | nil => rfl
    | cons c cs => rw [List.takeWhile_cons_of_neg (by simp [hrest c (by simp)])]
  have hdrop : rest.dropWhile Char.isDigit = rest := by
    cases rest with
    | nil => rfl
    | cons c cs => rw [List.dropWhile_cons_of_neg (by simp [hrest c (by simp)])]
  unfold splitDigits
  rw [List.takeWhile_append_of_pos hdigits, List.dropWhile_append_of_pos hdigits, htake, hdrop,
    List.append_nil]

theorem splitDigits_of_head {cs : List Char} (h : ∀ c ∈ cs.head?, c.isDigit = false) :
    splitDigits cs = ([], cs) :=
  splitDigits_of_digits (fun _ hc => absurd hc List.not_mem_nil) h

theorem isDigit_of_mem_splitDigits {cs : List Char} {c : Char} (h : c ∈ (splitDigits cs).1) :
    c.isDigit = true :=
  List.mem_takeWhile_imp h

theorem head_splitDigits (cs : List Char) :
    ∀ c ∈ (splitDigits cs).2.head?, c.isDigit = false := by
  intro c hc
  have hnot := List.head?_dropWhile_not Char.isDigit cs
  rw [show (cs.dropWhile Char.isDigit).head? = some c from hc] at hnot
  exact hnot

theorem ofDigits_append (front back : List Char) :
    ofDigits (front ++ back) = 10 ^ back.length * ofDigits front + ofDigits back := by
  unfold ofDigits
  rw [Nat.ofDigitChars_append, Nat.ofDigitChars_eq_ofDigitChars_zero]

theorem ofDigits_lt {digits : List Char} (h : ∀ c ∈ digits, c.isDigit = true) :
    ofDigits digits < 10 ^ digits.length := by
  induction digits with
  | nil => decide
  | cons c cs ih =>
      have hdigit := (digitChar_of_isDigit (h c List.mem_cons_self)).1
      have hcs := ih fun d hd => h d (List.mem_cons_of_mem c hd)
      have hsplit := ofDigits_append [c] cs
      rw [List.singleton_append] at hsplit
      have hmul := Nat.mul_le_mul_left (10 ^ cs.length) (Nat.le_of_lt_succ hdigit)
      rw [hsplit, List.length_cons, Nat.pow_succ]
      omega

theorem length_toDigits_ofDigits_le {digits : List Char} (hne : digits ≠ [])
    (h : ∀ c ∈ digits, c.isDigit = true) :
    (Nat.toDigits 10 (ofDigits digits)).length ≤ digits.length :=
  (Nat.length_toDigits_le_iff (by decide) (List.length_pos_iff.mpr hne)).mpr (ofDigits_lt h)

theorem ofDigits_toDigits (n : Nat) : ofDigits (Nat.toDigits 10 n) = n :=
  Nat.ofDigitChars_ten_toDigits

theorem ofDigits_zeros_append (zeros : Nat) (digits : List Char) :
    ofDigits (List.replicate zeros '0' ++ digits) = ofDigits digits := by
  have hzero : ofDigits (List.replicate zeros '0') = 0 := Nat.ofDigitChars_replicate_zero
  rw [ofDigits_append, hzero, Nat.mul_zero, Nat.zero_add]

theorem isDigit_zeros_append {zeros n : Nat} :
    ∀ c ∈ List.replicate zeros '0' ++ Nat.toDigits 10 n, c.isDigit = true := by
  intro c hc
  rcases List.mem_append.mp hc with hzero | hdigit
  · rw [(List.mem_replicate.mp hzero).2]
    rfl
  · exact Nat.isDigit_of_mem_toDigits (by decide) (by decide) hdigit

theorem exists_zeros {digits : List Char} (hne : digits ≠ [])
    (h : ∀ c ∈ digits, c.isDigit = true) :
    ∃ zeros, digits = List.replicate zeros '0' ++ Nat.toDigits 10 (ofDigits digits) := by
  induction digits using List.reverseRecOn with
  | nil => exact absurd rfl hne
  | append_singleton front c ih =>
      have hfront : ∀ d ∈ front, d.isDigit = true :=
        fun d hd => h d (List.mem_append_left [c] hd)
      rcases digitChar_of_isDigit (h c (by simp)) with ⟨hlt, hchar⟩
      have hlast : Nat.toDigits 10 (ofDigits [c]) = [c] := by
        rw [Nat.toDigits_of_lt_base hlt, hchar]
      have hvalue := ofDigits_append front [c]
      rw [List.length_singleton, Nat.pow_one] at hvalue
      by_cases hnil : front = []
      · refine ⟨0, ?_⟩
        rw [hnil, List.nil_append, hlast]
        rfl
      · obtain ⟨zeros, hzeros⟩ := ih hnil hfront
        by_cases hzero : ofDigits front = 0
        · refine ⟨zeros + 1, ?_⟩
          have hreplicate : front = List.replicate (zeros + 1) '0' := by
            rw [hzero] at hzeros
            rw [hzeros, List.replicate_succ']
            rfl
          rw [hvalue, hzero, Nat.mul_zero, Nat.zero_add, hlast, ← hreplicate]
        · refine ⟨zeros, ?_⟩
          have hdiv : (10 * ofDigits front + ofDigits [c]) / 10 = ofDigits front := by omega
          have hmod : (10 * ofDigits front + ofDigits [c]) % 10 = ofDigits [c] := by omega
          rw [hvalue, Nat.toDigits_of_base_le (by decide) (by omega), hdiv, hmod, hchar,
            ← List.append_assoc, ← hzeros]

end Text

namespace Scan

/-!
## Literals
-/

def isNumeral (c : Char) : Bool :=
  c.isDigit || c == '-' || c == '+' || c == '.'

/-- The parts of a literal, as written. -/
structure Literal where
  /-- The sign, if there is one: whether it is a minus. -/
  sign : Option Bool
  whole : List Char
  fraction : Option (List Char)
  isDigit_whole : ∀ c ∈ whole, c.isDigit = true
  isDigit_fraction : ∀ c ∈ fraction.getD [], c.isDigit = true

def signChars : Option Bool → List Char
  | none => []
  | some true => ['-']
  | some false => ['+']

def pointChars : Option (List Char) → List Char
  | none => []
  | some digits => '.' :: digits

theorem mem_pointChars {fraction : Option (List Char)} {c : Char}
    (h : c ∈ pointChars fraction) : c = '.' ∨ c ∈ fraction.getD [] := by
  cases fraction with
  | none => cases h
  | some digits => exact List.mem_cons.mp h

theorem mem_pointChars_of_mem {fraction : Option (List Char)} {c : Char}
    (h : c ∈ fraction.getD []) : c ∈ pointChars fraction := by
  cases fraction with
  | none => cases h
  | some digits => exact List.mem_cons_of_mem '.' h

theorem head_pointChars (fraction : Option (List Char)) {rest : List Char}
    (hrest : ∀ c ∈ rest.head?, c.isDigit = false) :
    ∀ c ∈ (pointChars fraction ++ rest).head?, c.isDigit = false := by
  cases fraction with
  | none => exact hrest
  | some digits =>
      intro c hc
      cases hc
      rfl

namespace Literal

def chars (l : Literal) : List Char :=
  signChars l.sign ++ (l.whole ++ pointChars l.fraction)

def digits (l : Literal) : List Char :=
  l.whole ++ l.fraction.getD []

def decimal (l : Literal) : Numeric.Decimal :=
  ⟨l.sign.getD false, Text.ofDigits l.digits, -(l.fraction.getD []).length⟩

theorem isDigit_digits (l : Literal) : ∀ c ∈ l.digits, c.isDigit = true := by
  intro c hc
  rcases List.mem_append.mp hc with hwhole | hfraction
  · exact l.isDigit_whole c hwhole
  · exact l.isDigit_fraction c hfraction

theorem mem_chars {l : Literal} {c : Char} (h : c ∈ l.chars) :
    c ∈ signChars l.sign ∨ c = '.' ∨ c ∈ l.digits := by
  rcases List.mem_append.mp h with hsign | hbody
  · exact Or.inl hsign
  · rcases List.mem_append.mp hbody with hwhole | hpoint
    · exact Or.inr (Or.inr (List.mem_append_left _ hwhole))
    · exact Or.inr ((mem_pointChars hpoint).imp_right (List.mem_append_right _))

theorem mem_chars_of_mem_digits {l : Literal} {c : Char} (h : c ∈ l.digits) : c ∈ l.chars := by
  apply List.mem_append_right
  rcases List.mem_append.mp h with hwhole | hfraction
  · exact List.mem_append_left _ hwhole
  · exact List.mem_append_right _ (mem_pointChars_of_mem hfraction)

theorem digits_ne_nil_iff (l : Literal) :
    l.digits ≠ [] ↔ ∃ c ∈ l.chars, c.isDigit = true := by
  constructor
  · intro hne
    obtain ⟨c, hc⟩ := List.exists_mem_of_ne_nil l.digits hne
    exact ⟨c, mem_chars_of_mem_digits hc, l.isDigit_digits c hc⟩
  · rintro ⟨c, hc, hdigit⟩
    have hsign : ∀ d ∈ signChars l.sign, d.isDigit = false := by
      rcases l.sign with _ | _ | _ <;> simp [signChars]
    rcases mem_chars hc with hmem | rfl | hmem
    · rw [hsign c hmem] at hdigit
      cases hdigit
    · cases hdigit
    · exact List.ne_nil_of_mem hmem

theorem isNumeral_chars (l : Literal) : ∀ c ∈ l.chars, isNumeral c = true := by
  intro c hc
  have hsign : ∀ d ∈ signChars l.sign, isNumeral d = true := by
    rcases l.sign with _ | _ | _ <;> simp [signChars, isNumeral]
  rcases mem_chars hc with hmem | rfl | hmem
  · exact hsign c hmem
  · rfl
  · unfold isNumeral
    rw [l.isDigit_digits c hmem]
    rfl

end Literal

/-!
## Scanning literals
-/

theorem not_numeral {c : Char} (h : isNumeral c = false) :
    c.isDigit = false ∧ c ≠ '-' ∧ c ≠ '+' ∧ c ≠ '.' := by
  unfold isNumeral at h
  simp only [Bool.or_eq_false_iff, beq_eq_false_iff_ne] at h
  tauto

theorem not_sign_of_isDigit {c : Char} (h : c.isDigit = true) : c ≠ '-' ∧ c ≠ '+' := by
  constructor <;> rintro rfl <;> cases h

theorem head_body (l : Literal) {rest : List Char} (hrest : ∀ c ∈ rest.head?, isNumeral c = false) :
    ∀ c ∈ (l.whole ++ (pointChars l.fraction ++ rest)).head?, c ≠ '-' ∧ c ≠ '+' := by
  rcases l with ⟨sign, whole, fraction, hwhole, _⟩
  intro c hc
  cases whole with
  | cons digit digits =>
      cases hc
      exact not_sign_of_isDigit (hwhole c List.mem_cons_self)
  | nil =>
      cases fraction with
      | some digits =>
          cases hc
          decide
      | none =>
          have hnot := not_numeral (hrest c hc)
          exact ⟨hnot.2.1, hnot.2.2.1⟩

theorem splitSign_signChars (sign : Option Bool) {body : List Char}
    (h : ∀ c ∈ body.head?, c ≠ '-' ∧ c ≠ '+') :
    splitSign (signChars sign ++ body) = (signChars sign, body) := by
  rcases sign with _ | _ | _
  · cases body with
    | nil => rfl
    | cons c cs =>
        rcases h c rfl with ⟨hminus, hplus⟩
        simp [signChars, splitSign, hminus, hplus]
  · rfl
  · rfl

/-- A literal is taken whole where no more of it can follow. -/
theorem splitLiteral_chars (l : Literal) {rest : List Char}
    (hrest : ∀ c ∈ rest.head?, isNumeral c = false) :
    splitLiteral (l.chars ++ rest) = (l.chars, rest) := by
  have hdigit : ∀ c ∈ rest.head?, c.isDigit = false := fun c hc => (not_numeral (hrest c hc)).1
  unfold splitLiteral Literal.chars
  rw [List.append_assoc, List.append_assoc, splitSign_signChars l.sign (head_body l hrest)]
  simp only [Text.splitDigits_of_digits l.isDigit_whole (head_pointChars l.fraction hdigit)]
  have hfractionDigits := l.isDigit_fraction
  cases hfraction : l.fraction with
  | none =>
      have hsplit : splitPoint rest = ([], rest) := by
        cases rest with
        | nil => rfl
        | cons c cs => simp [splitPoint, (not_numeral (hrest c rfl)).2.2.2]
      have hnil := Text.splitDigits_of_head hdigit
      simp only [pointChars, List.nil_append, hsplit, hnil, List.append_nil]
  | some digits =>
      rw [hfraction] at hfractionDigits
      have hsplit : splitPoint ('.' :: digits ++ rest) = (['.'], digits ++ rest) := rfl
      have hfraction : Text.splitDigits (digits ++ rest) = (digits, rest) :=
        Text.splitDigits_of_digits hfractionDigits hdigit
      simp only [pointChars, hsplit, hfraction]
      rw [List.append_assoc, List.append_assoc]
      rfl

theorem exists_sign (cs : List Char) : ∃ sign, (splitSign cs).1 = signChars sign := by
  unfold splitSign
  split
  · exact ⟨some true, rfl⟩
  · exact ⟨some false, rfl⟩
  · exact ⟨none, rfl⟩

theorem exists_fraction {cs : List Char} (hcs : ∀ c ∈ cs.head?, c.isDigit = false) :
    ∃ fraction : Option (List Char), (∀ c ∈ fraction.getD [], c.isDigit = true) ∧
      (splitPoint cs).1 ++ (Text.splitDigits (splitPoint cs).2).1 = pointChars fraction := by
  unfold splitPoint
  split
  · next rest =>
      exact ⟨some (Text.splitDigits rest).1, fun c hc => Text.isDigit_of_mem_splitDigits hc, rfl⟩
  · have hnil := Text.splitDigits_of_head hcs
    refine ⟨none, by simp, ?_⟩
    rw [hnil]
    rfl

theorem exists_literal (cs : List Char) : ∃ l : Literal, (splitLiteral cs).1 = l.chars := by
  obtain ⟨sign, hsign⟩ := exists_sign cs
  obtain ⟨fraction, hdigits, hfraction⟩ :=
    exists_fraction (Text.head_splitDigits (splitSign cs).2)
  refine ⟨⟨sign, (Text.splitDigits (splitSign cs).2).1, fraction,
    fun c hc => Text.isDigit_of_mem_splitDigits hc, hdigits⟩, ?_⟩
  unfold splitLiteral Literal.chars
  simp only [hsign]
  rw [List.append_assoc, List.append_assoc, hfraction]

/-!
## Reading literals
-/

namespace Literal

open Numeric

theorem splitSign_chars (l : Literal) :
    Decimal.splitSign l.chars = (l.sign.getD false, l.whole ++ pointChars l.fraction) := by
  have hhead : ∀ c ∈ (l.whole ++ (pointChars l.fraction ++ [])).head?, c ≠ '-' ∧ c ≠ '+' :=
    head_body l (by simp)
  rw [List.append_nil] at hhead
  unfold chars
  rcases l.sign with _ | _ | _
  · show Decimal.splitSign (l.whole ++ pointChars l.fraction) = _
    generalize l.whole ++ pointChars l.fraction = body at hhead ⊢
    cases body with
    | nil => rfl
    | cons c cs =>
        rcases hhead c rfl with ⟨hminus, hplus⟩
        simp [Decimal.splitSign, hminus, hplus]
  · rfl
  · rfl

theorem ofUnsigned_body (negative : Bool) (l : Literal) :
    Decimal.ofUnsigned? negative (l.whole ++ pointChars l.fraction) =
      if l.digits = [] then none
      else some ⟨negative, Text.ofDigits l.digits, -(l.fraction.getD []).length⟩ := by
  have hwhole : Text.splitDigits (l.whole ++ (pointChars l.fraction ++ [])) =
      (l.whole, pointChars l.fraction ++ []) :=
    Text.splitDigits_of_digits l.isDigit_whole (head_pointChars l.fraction (by simp))
  rw [List.append_nil] at hwhole
  have hsplit : Decimal.splitFraction (pointChars l.fraction) = (l.fraction.getD [], []) := by
    have hdigits := l.isDigit_fraction
    cases hfraction : l.fraction with
    | none => rfl
    | some digits =>
        rw [hfraction] at hdigits
        have hall : Text.splitDigits (digits ++ []) = (digits, []) :=
          Text.splitDigits_of_digits hdigits (by simp)
        rw [List.append_nil] at hall
        exact hall
  unfold Decimal.ofUnsigned?
  simp only [hwhole, hsplit, Decimal.exponent?,
    Option.map_some, zero_sub]
  unfold digits
  simp only [List.append_eq_nil_iff, Bool.and_eq_true, List.isEmpty_iff]

theorem numeral_chars (l : Literal) :
    Numeral.ofChars? l.chars = if l.digits = [] then none else some (.decimal l.decimal) := by
  unfold Numeral.ofChars?
  simp only [splitSign_chars, ofUnsigned_body]
  by_cases hdigits : l.digits = []
  · rcases List.append_eq_nil_iff.mp hdigits with ⟨hwhole, hfraction⟩
    simp only [if_pos hdigits, hwhole, List.nil_append]
    cases hpoint : l.fraction with
    | none => rfl
    | some digits =>
        rw [hpoint] at hfraction
        cases hfraction
        rfl
  · simp only [if_neg hdigits]
    rfl

theorem readFloat_chars (l : Literal) :
    readFloat? (String.ofList l.chars) =
      if l.digits = [] then none else some l.decimal.toFloat := by
  unfold readFloat?
  rw [String.toList_ofList, numeral_chars]
  split <;> rfl

theorem length_digits_le (l : Literal) : l.digits.length ≤ l.chars.length := by
  unfold digits chars
  rw [List.length_append, List.length_append, List.length_append]
  cases l.fraction with
  | none => simp [pointChars]
  | some digits =>
      simp only [Option.getD_some, pointChars, List.length_cons]
      omega

theorem order_decimal_le (l : Literal) (hdigits : l.digits ≠ []) :
    l.decimal.order ≤ l.chars.length := by
  have hlength := Text.length_toDigits_ofDigits_le hdigits l.isDigit_digits
  have hle := l.length_digits_le
  show ((Nat.toDigits 10 (Text.ofDigits l.digits)).length : Int) +
    -((l.fraction.getD []).length : Int) ≤ _
  omega

/-- No literal of a line denotes a number too large to be finite. -/
theorem isFinite_of_readFloat {l : Literal} {x : Float} (hlength : l.chars.length ≤ 300)
    (h : readFloat? (String.ofList l.chars) = some x) : Double.IsFinite x := by
  rw [readFloat_chars] at h
  by_cases hdigits : l.digits = []
  · rw [if_pos hdigits] at h
    cases h
  · rw [if_neg hdigits] at h
    cases h
    have horder := l.order_decimal_le hdigits
    exact Decimal.isFinite_toFloat (k := 100) (by decide) (by omega)

end Literal

/-!
## Writing literals
-/

section

open Numeric

theorem le_length_padDigits (width n : Nat) : width ≤ (padDigits width n).length := by
  simp only [padDigits, List.length_append, List.length_replicate]
  omega

theorem isDigit_padDigits (width n : Nat) : ∀ c ∈ padDigits width n, c.isDigit = true :=
  Text.isDigit_zeros_append

theorem ofDigits_padDigits (width n : Nat) : Text.ofDigits (padDigits width n) = n := by
  show Text.ofDigits (List.replicate _ '0' ++ Nat.toDigits 10 n) = n
  rw [Text.ofDigits_zeros_append, Text.ofDigits_toDigits]

theorem signChars_append (negative : Bool) (magnitude : List Char) :
    signChars (if negative then some true else none) ++ magnitude =
      Numeric.signed negative magnitude := by
  cases negative <;> rfl

theorem getD_sign (negative : Bool) :
    (if negative then some true else none).getD false = negative := by
  cases negative <;> rfl

theorem exists_literal_whole (negative : Bool) (n : Nat) :
    ∃ l : Literal, l.chars = signed negative (Nat.toDigits 10 n) ∧ l.digits ≠ [] ∧
      l.decimal = ⟨negative, n, 0⟩ := by
  refine ⟨⟨if negative then some true else none, Nat.toDigits 10 n, none,
    fun c hc => Nat.isDigit_of_mem_toDigits (by decide) (by decide) hc, by simp⟩, ?_, ?_, ?_⟩
  · unfold Literal.chars
    simp only [pointChars, List.append_nil, signChars_append]
  · show Nat.toDigits 10 n ++ [] ≠ []
    rw [List.append_nil]
    exact List.ne_nil_of_length_pos Nat.length_toDigits_pos
  · unfold Literal.decimal Literal.digits
    simp only [getD_sign, Option.getD_none, List.append_nil, Text.ofDigits_toDigits]
    rfl

theorem exists_literal_placed (negative : Bool) {places : Nat} (hplaces : places ≠ 0) (n : Nat) :
    ∃ l : Literal, l.chars = signed negative (placePoint places n) ∧ l.digits ≠ [] ∧
      l.decimal = ⟨negative, n, -places⟩ := by
  have hlength := le_length_padDigits (places + 1) n
  have hdigit := isDigit_padDigits (places + 1) n
  have hvalue := ofDigits_padDigits (places + 1) n
  unfold placePoint
  rw [if_neg hplaces]
  simp only
  generalize padDigits (places + 1) n = digits at hlength hdigit hvalue ⊢
  refine ⟨⟨if negative then some true else none, digits.take (digits.length - places),
    some (digits.drop (digits.length - places)),
    fun c hc => hdigit c (List.mem_of_mem_take hc),
    fun c hc => hdigit c (List.mem_of_mem_drop hc)⟩, ?_, ?_, ?_⟩
  · unfold Literal.chars
    simp only [signChars_append]
    rfl
  · show digits.take _ ++ digits.drop _ ≠ []
    rw [List.take_append_drop]
    exact List.ne_nil_of_length_pos (Nat.lt_of_lt_of_le (Nat.succ_pos places) hlength)
  · unfold Literal.decimal Literal.digits
    simp only [getD_sign, Option.getD_some, List.take_append_drop, hvalue, List.length_drop]
    rw [Nat.sub_sub_self (Nat.le_of_succ_le hlength)]

theorem exists_literal_positional (negative : Bool) (c : Nat) (e : Int) :
    ∃ l : Literal, l.chars = signed negative (positional c e) ∧ l.digits ≠ [] ∧
      l.decimal.toFloat = Decimal.toFloat ⟨negative, c, e⟩ := by
  unfold positional
  by_cases he : 0 ≤ e
  · obtain ⟨l, hchars, hdigits, hdecimal⟩ :=
      exists_literal_whole negative (c * Nat.pow 10 e.toNat)
    have hshift := Decimal.toFloat_shift negative c e.toNat 0
    rw [zero_add, Int.toNat_of_nonneg he] at hshift
    rw [if_pos he]
    refine ⟨l, hchars, hdigits, ?_⟩
    rw [hdecimal]
    exact hshift
  · have hplaces : (-e).toNat ≠ 0 := by omega
    obtain ⟨l, hchars, hdigits, hdecimal⟩ := exists_literal_placed negative hplaces c
    have hexponent : -((-e).toNat : Int) = e := by omega
    rw [if_neg he]
    refine ⟨l, hchars, hdigits, ?_⟩
    rw [hdecimal, hexponent]

theorem exists_literal_plain {x : Float} (h : Double.IsFinite x) :
    ∃ l : Literal, l.chars = NumberStyle.plain.chars x ∧ l.digits ≠ [] ∧
      l.decimal.toFloat = x := by
  obtain ⟨negative, m, e, hofFloat, hdecoded, hassemble⟩ := Double.exists_ofFloat h
  rcases Shortest.toFloat_ofFinite .away negative hdecoded with ⟨hnegative, hreads⟩
  obtain ⟨l, hchars, hdigits, hvalue⟩ := exists_literal_positional negative
    (Shortest.ofFinite .away negative m e).coefficient
    (Shortest.ofFinite .away negative m e).exponent
  refine ⟨l, ?_, hdigits, ?_⟩
  · unfold NumberStyle.chars
    rw [hchars, hofFloat]
    simp [NumberStyle.magnitudeText, NumberStyle.plain]
  · rw [hvalue, ← hassemble, ← hreads]
    generalize Shortest.ofFinite .away negative m e = d at hnegative ⊢
    rcases d with ⟨negative', c', e'⟩
    cases hnegative
    rfl

theorem readFloat_plain {x : Float} (h : Double.IsFinite x) :
    readFloat? (NumberStyle.plain.text x) = some x := by
  obtain ⟨l, hchars, hdigits, hvalue⟩ := exists_literal_plain h
  unfold NumberStyle.text
  rw [← hchars, Literal.readFloat_chars, if_neg hdigits, hvalue]

end

end Scan
end Extrusion
