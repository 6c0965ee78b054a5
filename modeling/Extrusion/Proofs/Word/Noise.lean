import Extrusion.Proofs.Word.Scan

/-!
# Words among noise

Blanks and closed comments may stand anywhere in a line, also inside a literal,
and a semicolon may end it.  Words that are written into a line in this way,
with letters of either case, are the words that a scan finds there.
-/

namespace Extrusion
namespace Scan

/-!
## Writing words
-/

/-- Some words without noise: each letter in lower or in upper case, and the
literal behind it. -/
inductive Written : List Word → List Char → Prop where
  | nil : Written [] []
  | cons {word : Word} {rest : List Word} {letter : Char} {chars : List Char}
      (hletter : letter = word.letter ∨ letter = word.letter.toUpper)
      (hrest : Written rest chars) :
      Written (word :: rest) (letter :: (word.literalText.toList ++ chars))

/-- Blanks and comments.  The text of a comment may hold anything but a closing
parenthesis. -/
inductive Noise : List Char → Prop where
  | nil : Noise []
  | blank {c : Char} {rest : List Char} (hc : Text.isBlank c = true) (hrest : Noise rest) :
      Noise (c :: rest)
  | comment (text : List Char) {rest : List Char} (htext : ')' ∉ text) (hrest : Noise rest) :
      Noise ('(' :: (text ++ ')' :: rest))

/-- Characters with noise in front of each of them and behind the last one. -/
inductive Scattered : List Char → List Char → Prop where
  | nil {noise : List Char} (hnoise : Noise noise) : Scattered [] noise
  | cons {noise : List Char} (c : Char) {chars text : List Char} (hnoise : Noise noise)
      (hrest : Scattered chars text) : Scattered (c :: chars) (noise ++ c :: text)

theorem Scattered.next {chars text : List Char} (h : Scattered chars text) (c : Char) :
    Scattered (c :: chars) (c :: text) :=
  .cons c .nil h

/-- The end of a line: nothing, or a semicolon and the rest of the line. -/
inductive Ending : List Char → Prop where
  | nil : Ending []
  | remark (text : List Char) (htext : '\n' ∉ text) : Ending (';' :: text)

def WrittenInto (ws : List Word) (line : String) : Prop :=
  ∃ chars text ending, Written ws chars ∧ Scattered chars text ∧ Ending ending ∧
    line.toList = text ++ ending

/-!
## Stripping noise
-/

theorem strip_comment {cs rest : List Char} (h : afterClose cs = some rest) :
    strip ('(' :: cs) = strip rest := by
  rw [strip, if_pos rfl]
  split
  · next found hfound =>
      rw [h] at hfound
      cases hfound
      rfl
  · next hnone =>
      rw [h] at hnone
      cases hnone

theorem afterLine_append {text rest : List Char} (htext : '\n' ∉ text)
    (hrest : ∀ c ∈ rest.head?, c = '\n') : afterLine (text ++ rest) = rest := by
  unfold afterLine
  have hkept : ∀ c ∈ text, decide (c ≠ '\n') = true := by
    intro c hc
    exact decide_eq_true fun heq => htext (heq ▸ hc)
  rw [List.dropWhile_append_of_pos hkept]
  cases rest with
  | nil => rfl
  | cons c cs => exact List.dropWhile_cons_of_neg (by simp [hrest c rfl])

theorem strip_remark {text rest : List Char} (htext : '\n' ∉ text)
    (hrest : ∀ c ∈ rest.head?, c = '\n') : strip (';' :: (text ++ rest)) = strip rest := by
  rw [strip, if_neg (by decide), if_pos rfl, afterLine_append htext hrest]

theorem strip_blank {c : Char} (h : Text.isBlank c = true) (cs : List Char) :
    strip (c :: cs) = strip cs := by
  have hopen : c ≠ '(' := by
    intro heq
    rw [heq] at h
    cases h
  have hsemicolon : c ≠ ';' := by
    intro heq
    rw [heq] at h
    cases h
  rw [strip, if_neg hopen, if_neg hsemicolon, if_pos h]

theorem strip_noise {noise : List Char} (h : Noise noise) (rest : List Char) :
    strip (noise ++ rest) = strip rest := by
  induction h with
  | nil => rfl
  | blank hc _ ih => rw [List.cons_append, strip_blank hc, ih]
  | comment text htext _ ih =>
      rw [List.cons_append, List.append_assoc, List.cons_append,
        strip_comment (afterClose_append htext _), ih]

theorem strip_scattered {chars text : List Char} (h : Scattered chars text)
    (hplain : ∀ c ∈ chars, isPlain c = true) (rest : List Char) :
    strip (text ++ rest) = chars ++ strip rest := by
  induction h with
  | nil hnoise => exact strip_noise hnoise rest
  | cons c hnoise _ ih =>
      rcases List.forall_mem_cons.mp hplain with ⟨hc, hchars⟩
      rw [List.append_assoc, strip_noise hnoise, List.cons_append, strip_cons_of_isPlain hc,
        ih hchars, List.cons_append]

theorem strip_ending {ending : List Char} (h : Ending ending) : strip ending = [] := by
  cases h with
  | nil => rw [strip]
  | remark text htext =>
      rw [← List.append_nil text, strip_remark htext (by simp), strip]

/-!
## Finding the words
-/

theorem plain_letter {c letter : Char} (hc : c.isLower = true)
    (hletter : letter = c ∨ letter = c.toUpper) :
    isPlain letter = true ∧ lower letter = [c] := by
  cases hletter with
  | inl hlower =>
      rw [hlower]
      exact Text.of_ascii (p := fun c => c.isLower = true → isPlain c = true ∧ lower c = [c])
        (by decide) (toNat_lt_of_isLower hc) hc
  | inr hupper =>
      rw [hupper]
      exact plain_of_isLower hc

/-- Nothing of a written word is noise, and lower case takes it back to one
spelling. -/
theorem plain_written {ws : List Word} {chars : List Char} (h : Written ws chars)
    (hscanned : ∀ word ∈ ws, Scanned word) :
    (∀ c ∈ chars, isPlain c = true) ∧ chars.flatMap lower = ws.flatMap spelled := by
  induction h with
  | nil => exact ⟨by simp, rfl⟩
  | @cons word rest letter chars hletter _ ih =>
      rcases List.forall_mem_cons.mp hscanned with ⟨hword, hrest⟩
      rcases plain_letter hword.isLower hletter with ⟨hplain, hlower⟩
      rcases plain_literal hword with ⟨hplains, hlowers⟩
      rcases ih hrest with ⟨hothers, hsame⟩
      constructor
      · intro c hc
        rcases List.mem_cons.mp hc with heq | hmem
        · rw [heq]
          exact hplain
        · rcases List.mem_append.mp hmem with hliteral | hlater
          · exact hplains c hliteral
          · exact hothers c hlater
      · rw [List.flatMap_cons, List.flatMap_append, hlower, hlowers, hsame, List.flatMap_cons]
        rfl

/-- A scan gives back the words that were written into a line. -/
theorem scan_of_writtenInto {ws : List Word} {line : String}
    (hscanned : ∀ word ∈ ws, Scanned word) (h : WrittenInto ws line) : Word.scan line = ws := by
  rcases h with ⟨chars, text, ending, hwritten, hscattered, hending, hline⟩
  rcases plain_written hwritten hscanned with ⟨hplain, hlower⟩
  unfold Word.scan
  rw [hline, strip_scattered hscattered hplain, strip_ending hending, List.append_nil, hlower,
    words_spelled hscanned]

def mixedWords : List Word :=
  [⟨'g', some "10"⟩, ⟨'x', some "-.5"⟩, ⟨'y', none⟩]

theorem scanned_mixedWords : ∀ word ∈ mixedWords, Scanned word := by
  have hg : Scanned ⟨'g', some (String.ofList ['1', '0'])⟩ :=
    scanned_digits rfl (by simp) (by simp)
  have hx : Scanned ⟨'x', some "-.5"⟩ :=
    ⟨rfl, ⟨⟨some true, [], some ['5'], by simp, by simp⟩, rfl⟩, by decide⟩
  have hy : Scanned ⟨'y', none⟩ := ⟨rfl, ⟨⟨none, [], none, by simp, by simp⟩, rfl⟩, by simp⟩
  intro word hword
  simp only [mixedWords, List.mem_cons, List.not_mem_nil, or_false] at hword
  rcases hword with rfl | rfl | rfl
  · exact hg
  · exact hx
  · exact hy

theorem scan_mixed_line :
    (∀ word ∈ mixedWords, Scanned word) ∧
      WrittenInto mixedWords "(m1)G1(a;(b) 0x- .5Y;z(1" ∧
      Word.scan "(m1)G1(a;(b) 0x- .5Y;z(1" = mixedWords := by
  have hfront : Noise ['(', 'm', '1', ')'] := .comment ['m', '1'] (by decide) .nil
  have hinside : Noise ['(', 'a', ';', '(', 'b', ')', ' '] :=
    .comment ['a', ';', '(', 'b'] (by decide) (.blank rfl .nil)
  have hspace : Noise [' '] := .blank rfl .nil
  have hwritten : Written mixedWords ['G', '1', '0', 'x', '-', '.', '5', 'Y'] :=
    .cons (Or.inr rfl) (.cons (Or.inl rfl) (.cons (Or.inr rfl) .nil))
  have hlast : Scattered ['5', 'Y'] ['5', 'Y'] := ((Scattered.nil .nil).next 'Y').next '5'
  have hpoint : Scattered ['.', '5', 'Y'] [' ', '.', '5', 'Y'] := .cons '.' hspace hlast
  have hdigit : Scattered ['0', 'x', '-', '.', '5', 'Y']
      ['(', 'a', ';', '(', 'b', ')', ' ', '0', 'x', '-', ' ', '.', '5', 'Y'] :=
    .cons '0' hinside ((hpoint.next '-').next 'x')
  have hscattered : Scattered ['G', '1', '0', 'x', '-', '.', '5', 'Y']
      ['(', 'm', '1', ')', 'G', '1', '(', 'a', ';', '(', 'b', ')', ' ', '0', 'x', '-', ' ', '.',
        '5', 'Y'] :=
    .cons 'G' hfront (hdigit.next '1')
  have hinto : WrittenInto mixedWords "(m1)G1(a;(b) 0x- .5Y;z(1" :=
    ⟨_, _, [';', 'z', '(', '1'], hwritten, hscattered, .remark ['z', '(', '1'] (by decide), rfl⟩
  exact ⟨scanned_mixedWords, hinto, scan_of_writtenInto scanned_mixedWords hinto⟩

end Scan
end Extrusion
