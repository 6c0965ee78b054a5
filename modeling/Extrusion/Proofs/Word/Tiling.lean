import Mathlib
import Extrusion.Proofs.Word.Noise

/-!
# Lines as tilings

Without its comments and blanks a line is junk, a letter, a literal, junk, a
letter, a literal, and so on.  No junk has a letter in it and every literal is
as long as it can be, so the line determines the tiles, and a scan gives them.
-/

namespace Extrusion
namespace Scan

/-- No blank, no semicolon, and no opening parenthesis that is closed. -/
structure Cleaned (text : List Char) : Prop where
  unblank : ∀ c ∈ text, Text.isBlank c = false
  unremarked : ';' ∉ text
  unclosed : text.Pairwise fun c d => c = '(' → d ≠ ')'

/-- What is kept of a text: from the left on, comments that are closed, remarks up
to the end of their line, and blanks are dropped. -/
inductive Stripped : List Char → List Char → Prop where
  | nil : Stripped [] []
  | comment (inner : List Char) {text kept : List Char} (hinner : ')' ∉ inner)
      (hrest : Stripped text kept) : Stripped ('(' :: (inner ++ ')' :: text)) kept
  | remark (inner : List Char) {text kept : List Char} (hinner : '\n' ∉ inner)
      (hend : ∀ c ∈ text.head?, c = '\n') (hrest : Stripped text kept) :
      Stripped (';' :: (inner ++ text)) kept
  | blank (c : Char) {text kept : List Char} (hblank : Text.isBlank c = true)
      (hrest : Stripped text kept) : Stripped (c :: text) kept
  | keep (c : Char) {text kept : List Char} (hblank : Text.isBlank c = false)
      (hsemicolon : c ≠ ';') (hcomment : c = '(' → ')' ∉ text) (hrest : Stripped text kept) :
      Stripped (c :: text) (c :: kept)

/-- A literal in front of a text, and no shorter than any other there. -/
structure LongestLiteral (text literal : List Char) : Prop where
  isLiteral : ∃ l : Literal, literal = l.chars
  inFront : literal <+: text
  longest : ∀ l : Literal, l.chars <+: text → l.chars.length ≤ literal.length

inductive Tiled : List Char → List Word → Prop where
  | junk (junk : List Char) (hjunk : ∀ d ∈ junk, d.isLower = false) : Tiled junk []
  | field (junk : List Char) (c : Char) (literal : List Char) {rest : List Char}
      {ws : List Word} (hjunk : ∀ d ∈ junk, d.isLower = false) (hletter : c.isLower = true)
      (hliteral : LongestLiteral (literal ++ rest) literal) (hrest : Tiled rest ws) :
      Tiled (junk ++ c :: (literal ++ rest))
        (⟨c, if literal = [] then none else some (String.ofList literal)⟩ :: ws)

def remaining (line : String) : List Char :=
  (strip line.toList).flatMap lower

/-!
## Comments and blanks
-/

theorem Cleaned.cons {c : Char} {cs : List Char} (h : Cleaned cs)
    (hblank : Text.isBlank c = false) (hsemicolon : c ≠ ';') (hopen : c = '(' → ')' ∉ cs) :
    Cleaned (c :: cs) where
  unblank := List.forall_mem_cons.mpr ⟨hblank, h.unblank⟩
  unremarked := by
    intro hmem
    rcases List.mem_cons.mp hmem with heq | hrest
    · exact hsemicolon heq.symm
    · exact h.unremarked hrest
  unclosed := by
    refine List.Pairwise.cons ?_ h.unclosed
    rintro d hd hc rfl
    exact hopen hc hd

theorem strip_open {rest : List Char} (h : ')' ∉ rest) : strip ('(' :: rest) = '(' :: strip rest := by
  rw [strip, if_pos rfl]
  split
  · next found hfound =>
      rw [afterClose_eq_none_iff.mpr h] at hfound
      cases hfound
  · rfl

theorem stripped_strip (cs : List Char) : Stripped cs (strip cs) := by
  fun_induction strip cs with
  | case1 => exact .nil
  | case2 cs rest hclose _ ih =>
      obtain ⟨text, htext, rfl⟩ := exists_of_afterClose hclose
      exact .comment text htext ih
  | case3 cs hclose ih =>
      exact .keep '(' rfl (by decide) (fun _ => afterClose_eq_none_iff.mp hclose) ih
  | case4 cs hne ih =>
      have htext : '\n' ∉ cs.takeWhile (· ≠ '\n') := by
        intro hmem
        have hother := List.mem_takeWhile_imp hmem
        exact of_decide_eq_true hother rfl
      have hrest : ∀ c ∈ (afterLine cs).head?, c = '\n' := by
        intro c hc
        have hnot := List.head?_dropWhile_not (· ≠ '\n') cs
        rw [show (cs.dropWhile (· ≠ '\n')).head? = some c from hc] at hnot
        simpa using hnot
      have hremark := Stripped.remark _ htext hrest ih
      rwa [afterLine, List.takeWhile_append_dropWhile] at hremark
  | case5 c cs hopen hsemicolon hblank ih => exact .blank c hblank ih
  | case6 c cs hopen hsemicolon hblank ih =>
      exact .keep c (Bool.eq_false_iff.mpr hblank) hsemicolon (fun heq => absurd heq hopen) ih

namespace Stripped

variable {text kept : List Char}

theorem eq_strip (h : Stripped text kept) : kept = strip text := by
  induction h with
  | nil => rw [strip]
  | comment inner hinner _ ih => rw [strip_comment (afterClose_append hinner _), ih]
  | remark inner hinner hend _ ih => rw [strip_remark hinner hend, ih]
  | blank c hc _ ih => rw [strip_blank hc, ih]
  | keep c hblank hsemicolon hcomment _ ih =>
      by_cases hopen : c = '('
      · rw [hopen, strip_open (hcomment hopen), ih]
      · have hplain : isPlain c = true := by simp [isPlain, hopen, hsemicolon, hblank]
        rw [strip_cons_of_isPlain hplain, ih]

theorem sublist (h : Stripped text kept) : kept.Sublist text := by
  rw [h.eq_strip]
  exact strip_sublist text

theorem cleaned (h : Stripped text kept) : Cleaned kept := by
  induction h with
  | nil => exact ⟨by simp, List.not_mem_nil, List.Pairwise.nil⟩
  | comment _ _ _ ih => exact ih
  | remark _ _ _ _ ih => exact ih
  | blank _ _ _ ih => exact ih
  | keep c hblank hsemicolon hcomment hrest ih =>
      -- What follows a kept opening parenthesis has no closing one to keep.
      exact ih.cons hblank hsemicolon fun hopen hmem =>
        hcomment hopen (hrest.sublist.mem hmem)

end Stripped

/-!
## Lower case
-/

theorem mem_lower {c d : Char} (h : d ∈ lower c) : d = c ∨ d.isLower = true ∨ d = '\u0307' := by
  unfold lower at h
  split at h
  · rw [List.mem_singleton.mp h]
    exact Or.inr (by decide)
  · split at h
    · rcases List.mem_cons.mp h with rfl | hdot
      · exact Or.inr (by decide)
      · rw [List.mem_singleton.mp hdot]
        exact Or.inr (by decide)
    · rw [List.mem_singleton.mp h]
      by_cases hupper : c.isUpper = true
      · refine Or.inr (Or.inl ?_)
        rw [Char.isLower_toLower_eq_isAlpha, Char.isAlpha, hupper, Bool.true_or]
      · exact Or.inl (Char.toLower_eq_of_not_isUpper hupper)

theorem mem_lower_cases {c d : Char} (h : d ∈ lower c) :
    d = c ∨ isPlain d = true ∧ d ≠ ')' := by
  rcases mem_lower h with heq | hlower | rfl
  · exact Or.inl heq
  · have hplain := Text.of_ascii
      (p := fun d => d.isLower = true → isPlain d = true ∧ d ≠ ')')
      (by decide) (toNat_lt_of_isLower hlower)
    exact Or.inr (hplain hlower)
  · exact Or.inr (by decide)

theorem unclosed_lower (c : Char) : (lower c).Pairwise fun c d => c = '(' → d ≠ ')' := by
  unfold lower
  split
  · exact List.pairwise_singleton _ _
  · split
    · decide
    · exact List.pairwise_singleton _ _

theorem Cleaned.lower {text : List Char} (h : Cleaned text) : Cleaned (text.flatMap lower) where
  unblank := by
    intro d hd
    obtain ⟨c, hc, hd⟩ := List.mem_flatMap.mp hd
    rcases mem_lower_cases hd with rfl | ⟨hplain, _⟩
    · exact h.unblank d hc
    · simp only [isPlain, Bool.and_eq_true, Bool.not_eq_true'] at hplain
      exact hplain.2
  unremarked := by
    intro hmem
    obtain ⟨c, hc, hd⟩ := List.mem_flatMap.mp hmem
    rcases mem_lower_cases hd with rfl | ⟨hplain, _⟩
    · exact h.unremarked hc
    · cases hplain
  unclosed := by
    rw [List.pairwise_flatMap]
    refine ⟨fun c _ => unclosed_lower c, h.unclosed.imp ?_⟩
    intro a b hab x hx y hy hopen hclose
    subst hopen
    subst hclose
    rcases mem_lower_cases hx with rfl | ⟨hplain, _⟩
    · rcases mem_lower_cases hy with rfl | ⟨_, hne⟩
      · exact hab rfl rfl
      · exact hne rfl
    · cases hplain

/-!
## Longest literals
-/

theorem splitDigits_append_of_digits {digits : List Char} (h : ∀ c ∈ digits, c.isDigit = true)
    (rest : List Char) :
    (Text.splitDigits (digits ++ rest)).1 = digits ++ (Text.splitDigits rest).1 :=
  List.takeWhile_append_of_pos h

theorem splitSign_chars_append {l : Literal} (h : l.chars ≠ []) (rest : List Char) :
    splitSign (l.chars ++ rest) =
      (signChars l.sign, l.whole ++ (pointChars l.fraction ++ rest)) := by
  rcases l with ⟨sign, whole, fraction, hwhole, hfraction⟩
  unfold Literal.chars at h ⊢
  simp only [List.append_assoc] at h ⊢
  rcases sign with _ | _ | _
  · apply splitSign_signChars none
    intro c hc
    cases whole with
    | cons digit digits =>
        cases hc
        exact not_sign_of_isDigit (hwhole c List.mem_cons_self)
    | nil =>
        cases fraction with
        | some digits =>
            cases hc
            decide
        | none => exact absurd rfl h
  · rfl
  · rfl

theorem prefix_splitLiteral (l : Literal) (rest : List Char) :
    l.chars <+: (splitLiteral (l.chars ++ rest)).1 := by
  by_cases hnil : l.chars = []
  · rw [hnil]
    exact List.nil_prefix
  · unfold splitLiteral
    simp only [splitSign_chars_append hnil, List.append_assoc]
    unfold Literal.chars
    rw [List.prefix_append_right_inj]
    cases hpoint : l.fraction with
    | none =>
        simp only [pointChars, List.append_nil, List.nil_append]
        rw [splitDigits_append_of_digits l.isDigit_whole, List.append_assoc]
        exact List.prefix_append _ _
    | some digits =>
        have hfraction : ∀ c ∈ digits, c.isDigit = true := by
          intro c hc
          exact l.isDigit_fraction c (by rwa [hpoint])
        have hhead : ∀ c ∈ (pointChars (some digits) ++ rest).head?, c.isDigit = false := by
          intro c hc
          cases hc
          rfl
        have hsplit : splitPoint (pointChars (some digits) ++ rest) = (['.'], digits ++ rest) := rfl
        simp only [Text.splitDigits_of_digits l.isDigit_whole hhead, hsplit]
        rw [List.prefix_append_right_inj, splitDigits_append_of_digits hfraction]
        exact List.prefix_append ('.' :: digits) _

theorem longestLiteral_splitLiteral (text : List Char) :
    LongestLiteral text (splitLiteral text).1 where
  isLiteral := exists_literal text
  inFront := ⟨(splitLiteral text).2, splitLiteral_append text⟩
  longest := by
    rintro l ⟨rest, rfl⟩
    exact (prefix_splitLiteral l rest).length_le

theorem LongestLiteral.unique {text literal literal' : List Char}
    (h : LongestLiteral text literal) (h' : LongestLiteral text literal') :
    literal = literal' := by
  obtain ⟨l, hl⟩ := h.isLiteral
  obtain ⟨l', hl'⟩ := h'.isLiteral
  have hle : literal.length ≤ literal'.length := by
    rw [hl]
    exact h'.longest l (hl ▸ h.inFront)
  have hge : literal'.length ≤ literal.length := by
    rw [hl']
    exact h.longest l' (hl' ▸ h'.inFront)
  exact (List.prefix_of_prefix_length_le h.inFront h'.inFront hle).eq_of_length
    (Nat.le_antisymm hle hge)

theorem LongestLiteral.splitLiteral {literal rest : List Char}
    (h : LongestLiteral (literal ++ rest) literal) :
    splitLiteral (literal ++ rest) = (literal, rest) := by
  have hliteral := (longestLiteral_splitLiteral (literal ++ rest)).unique h
  have hwhole := splitLiteral_append (literal ++ rest)
  rw [hliteral, List.append_cancel_left_eq] at hwhole
  exact Prod.ext hliteral hwhole

theorem LongestLiteral.filter_isLower {text literal : List Char}
    (h : LongestLiteral text literal) : literal.filter Char.isLower = [] := by
  obtain ⟨l, rfl⟩ := h.isLiteral
  rw [List.filter_eq_nil_iff]
  intro c hc hlower
  have hnumeral := l.isNumeral_chars c hc
  rw [not_numeral_of_isLower hlower] at hnumeral
  cases hnumeral

/-!
## Tiles
-/

theorem Tiled.cons {c : Char} {text : List Char} {ws : List Word} (hc : c.isLower = false)
    (h : Tiled text ws) : Tiled (c :: text) ws := by
  cases h with
  | junk junk hjunk => exact .junk (c :: text) (List.forall_mem_cons.mpr ⟨hc, hjunk⟩)
  | field junk letter literal hjunk hletter hliteral hrest =>
      exact .field (c :: junk) letter literal (List.forall_mem_cons.mpr ⟨hc, hjunk⟩) hletter
        hliteral hrest

theorem tiled_words (text : List Char) : Tiled text (words text) := by
  fun_induction words text with
  | case1 => exact .junk [] (by simp)
  | case2 c cs hc literal ih =>
      have hliteral : LongestLiteral ((splitLiteral cs).1 ++ (splitLiteral cs).2) literal := by
        rw [splitLiteral_append]
        exact longestLiteral_splitLiteral cs
      have htiled := Tiled.field [] c literal (by simp) hc hliteral ih
      rwa [splitLiteral_append] at htiled
  | case3 c cs hc ih => exact ih.cons (Bool.eq_false_iff.mpr hc)

theorem words_junk_append {junk : List Char} (h : ∀ d ∈ junk, d.isLower = false)
    (text : List Char) : words (junk ++ text) = words text := by
  induction junk with
  | nil => rfl
  | cons c cs ih =>
      rcases List.forall_mem_cons.mp h with ⟨hc, hcs⟩
      rw [List.cons_append, words, if_neg (by simp [hc]), ih hcs]

/-- A text has one tiling. -/
theorem Tiled.eq_words {text : List Char} {ws : List Word} (h : Tiled text ws) :
    ws = words text := by
  induction h with
  | junk junk hjunk =>
      have hwords := words_junk_append hjunk []
      rw [List.append_nil, words] at hwords
      exact hwords.symm
  | field junk c literal hjunk hletter hliteral _ ih =>
      rw [words_junk_append hjunk, words, if_pos hletter, hliteral.splitLiteral, ih]

theorem tiled_iff {text : List Char} {ws : List Word} : Tiled text ws ↔ ws = words text := by
  constructor
  · exact Tiled.eq_words
  · rintro rfl
    exact tiled_words text

theorem Tiled.letters {text : List Char} {ws : List Word} (h : Tiled text ws) :
    ws.map Word.letter = text.filter Char.isLower := by
  induction h with
  | junk junk hjunk =>
      have hnone : junk.filter Char.isLower = [] := by simpa using hjunk
      rw [hnone, List.map_nil]
  | field junk c literal hjunk hletter hliteral _ ih =>
      have hnone : junk.filter Char.isLower = [] := by simpa using hjunk
      rw [List.filter_append, hnone, List.nil_append, List.filter_cons_of_pos hletter,
        List.filter_append, hliteral.filter_isLower, List.nil_append, List.map_cons, ih]

/-!
## The rule
-/

/-- What is left of a line, and how its words account for all of it. -/
structure ScanRule (line : String) : Prop where
  strips : ∀ kept, Stripped line.toList kept ↔ kept = strip line.toList
  cleaned : Cleaned (strip line.toList)
  lowered : Cleaned (remaining line)
  tiles : ∀ ws, Tiled (remaining line) ws ↔ ws = Word.scan line
  letters : (Word.scan line).map Word.letter = (remaining line).filter Char.isLower

theorem scanRule (line : String) : ScanRule line where
  strips := by
    intro kept
    constructor
    · exact Stripped.eq_strip
    · rintro rfl
      exact stripped_strip line.toList
  cleaned := (stripped_strip line.toList).cleaned
  lowered := (stripped_strip line.toList).cleaned.lower
  tiles := by
    intro ws
    exact tiled_iff
  letters := (tiled_words (remaining line)).letters

end Scan
end Extrusion
