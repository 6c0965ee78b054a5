import Mathlib
import Extrusion.Proofs.Word.Literal

/-!
# Scanned words

A scan gives words with a letter from a to z and a literal no longer than the
line.  Words of that kind are found again in their own texts: no character of
them opens a comment, and each letter ends the literal in front of it.
-/

namespace Extrusion
namespace Scan

/-!
## Characters
-/

theorem toNat_lt_of_isLower {c : Char} (h : c.isLower = true) : c.toNat < 128 := by
  simp only [Char.isLower, Bool.and_eq_true, decide_eq_true_eq] at h
  have hle : c.toNat ≤ 'z'.toNat := h.2
  exact Nat.lt_of_le_of_lt hle (by decide)

theorem toNat_lt_of_isNumeral {c : Char} (h : isNumeral c = true) : c.toNat < 128 := by
  simp only [isNumeral, Bool.or_eq_true, beq_iff_eq] at h
  rcases h with ((hdigit | rfl) | rfl) | rfl
  · exact Text.toNat_lt_of_isDigit hdigit
  all_goals decide

def isPlain (c : Char) : Bool :=
  c != '(' && c != ';' && !Text.isBlank c

theorem not_numeral_of_isLower {c : Char} (h : c.isLower = true) : isNumeral c = false :=
  Text.of_ascii (p := fun c => c.isLower = true → isNumeral c = false) (by decide)
    (toNat_lt_of_isLower h) h

theorem plain_of_isLower {c : Char} (h : c.isLower = true) :
    isPlain c.toUpper = true ∧ lower c.toUpper = [c] :=
  Text.of_ascii (p := fun c => c.isLower = true → isPlain c.toUpper = true ∧ lower c.toUpper = [c])
    (by decide) (toNat_lt_of_isLower h) h

theorem plain_of_isNumeral {c : Char} (h : isNumeral c = true) :
    isPlain c = true ∧ lower c = [c] :=
  Text.of_ascii (p := fun c => isNumeral c = true → isPlain c = true ∧ lower c = [c])
    (by decide) (toNat_lt_of_isNumeral h) h

/-!
## Comments and blanks
-/

theorem afterClose_append {text : List Char} (h : ')' ∉ text) (rest : List Char) :
    afterClose (text ++ ')' :: rest) = some rest := by
  induction text with
  | nil => rfl
  | cons c cs ih =>
      have hc : c ≠ ')' := fun heq => h (heq ▸ List.mem_cons_self)
      rw [List.cons_append, afterClose, if_neg hc]
      exact ih fun hmem => h (List.mem_cons_of_mem c hmem)

theorem exists_of_afterClose {cs rest : List Char} (h : afterClose cs = some rest) :
    ∃ text, ')' ∉ text ∧ cs = text ++ ')' :: rest := by
  induction cs with
  | nil => cases h
  | cons c cs ih =>
      unfold afterClose at h
      split at h
      · next heq =>
          rw [heq, ← Option.some.inj h]
          exact ⟨[], List.not_mem_nil, rfl⟩
      · next hne =>
          obtain ⟨text, htext, rfl⟩ := ih h
          refine ⟨c :: text, ?_, rfl⟩
          intro hmem
          rcases List.mem_cons.mp hmem with heq | hlater
          · exact hne heq.symm
          · exact htext hlater

theorem afterClose_eq_none_iff {cs : List Char} : afterClose cs = none ↔ ')' ∉ cs := by
  induction cs with
  | nil => exact ⟨fun _ => List.not_mem_nil, fun _ => rfl⟩
  | cons c cs ih =>
      unfold afterClose
      by_cases hclose : c = ')'
      · simp [hclose]
      · rw [if_neg hclose, ih, List.mem_cons, not_or]
        exact ⟨fun h => ⟨Ne.symm hclose, h⟩, And.right⟩

theorem strip_sublist (cs : List Char) : (strip cs).Sublist cs := by
  fun_induction strip cs with
  | case1 => exact List.Sublist.refl []
  | case2 cs rest hclose _ ih =>
      obtain ⟨text, _, rfl⟩ := exists_of_afterClose hclose
      exact ((ih.cons ')').trans (List.sublist_append_right text _)).cons '('
  | case3 cs hclose ih => exact ih.cons_cons '('
  | case4 cs hne ih =>
      have hline : (afterLine cs).Sublist cs := (List.dropWhile_suffix _).sublist
      exact (ih.trans hline).cons ';'
  | case5 c cs hopen hsemicolon hblank ih => exact ih.cons c
  | case6 c cs hopen hsemicolon hblank ih => exact ih.cons_cons c

theorem strip_cons_of_isPlain {c : Char} (h : isPlain c = true) (cs : List Char) :
    strip (c :: cs) = c :: strip cs := by
  simp only [isPlain, Bool.and_eq_true, bne_iff_ne, Bool.not_eq_true'] at h
  rw [strip, if_neg h.1.1, if_neg h.1.2, h.2]
  rfl

theorem strip_append_of_isPlain {front : List Char} (h : ∀ c ∈ front, isPlain c = true)
    (back : List Char) : strip (front ++ back) = front ++ strip back := by
  induction front with
  | nil => rfl
  | cons c cs ih =>
      rw [List.cons_append, strip_cons_of_isPlain (h c List.mem_cons_self),
        ih fun d hd => h d (List.mem_cons_of_mem c hd), List.cons_append]

theorem strip_space (cs : List Char) : strip (' ' :: cs) = strip cs := by
  rw [strip]
  rfl

/-!
## Words of a line
-/

/-- A letter and a literal, as a scan gives them. -/
structure Scanned (word : Word) : Prop where
  isLower : word.letter.isLower = true
  literal : ∃ l : Literal, word.literalText.toList = l.chars
  not_empty : word.literal ≠ some ""

theorem scanned_digits {c : Char} (hc : c.isLower = true) {digits : List Char} (hne : digits ≠ [])
    (hdigits : ∀ d ∈ digits, d.isDigit = true) : Scanned ⟨c, some (String.ofList digits)⟩ where
  isLower := hc
  literal := by
    refine ⟨⟨none, digits, none, hdigits, by simp⟩, ?_⟩
    show (String.ofList digits).toList = digits ++ []
    rw [String.toList_ofList, List.append_nil]
  not_empty := by
    intro hempty
    have hlist := congrArg String.toList (Option.some.inj hempty)
    rw [String.toList_ofList] at hlist
    exact hne hlist

theorem countP_splitLiteral (cs : List Char) :
    (splitLiteral cs).1.length + (splitLiteral cs).2.countP isNumeral = cs.countP isNumeral := by
  obtain ⟨l, hl⟩ := exists_literal cs
  have hall : l.chars.countP isNumeral = l.chars.length :=
    List.countP_eq_length.mpr l.isNumeral_chars
  conv => rhs; rw [← splitLiteral_append cs, List.countP_append, hl, hall]
  rw [hl]

theorem toList_literal (c : Char) (literal : List Char) :
    (Word.mk c (if literal = [] then none else some (String.ofList literal))).literalText.toList =
      literal := by
  by_cases hnil : literal = []
  · rw [if_pos hnil, hnil]
    rfl
  · rw [if_neg hnil]
    exact String.toList_ofList

theorem scanned_splitLiteral {c : Char} (hc : c.isLower = true) (cs : List Char) :
    Scanned ⟨c, if (splitLiteral cs).1 = [] then none
      else some (String.ofList (splitLiteral cs).1)⟩ where
  isLower := hc
  literal := by
    obtain ⟨l, hl⟩ := exists_literal cs
    exact ⟨l, (toList_literal c _).trans hl⟩
  not_empty := by
    by_cases hnil : (splitLiteral cs).1 = []
    · simp [hnil]
    · intro hempty
      rw [if_neg hnil] at hempty
      have hlist := congrArg String.toList (Option.some.inj hempty)
      rw [String.toList_ofList] at hlist
      exact hnil hlist

theorem scanned_words (cs : List Char) :
    ∀ word ∈ words cs,
      Scanned word ∧ word.literalText.toList.length ≤ cs.countP isNumeral := by
  fun_induction words cs with
  | case1 => simp
  | case2 c cs hc literal ih =>
      have hcount := countP_splitLiteral cs
      have hle : cs.countP isNumeral ≤ (c :: cs).countP isNumeral := by
        rw [List.countP_cons]
        omega
      intro word hword
      rcases List.mem_cons.mp hword with rfl | hmem
      · have hlist := congrArg List.length (toList_literal c (splitLiteral cs).1)
        exact ⟨scanned_splitLiteral hc cs, hlist.trans_le (by omega)⟩
      · rcases ih word hmem with ⟨hscanned, hlength⟩
        exact ⟨hscanned, by omega⟩
  | case3 c cs hc ih =>
      intro word hword
      rcases ih word hword with ⟨hscanned, hlength⟩
      rw [List.countP_cons]
      exact ⟨hscanned, by omega⟩

theorem countP_lower_le (c : Char) : (lower c).countP isNumeral ≤ 1 := by
  unfold lower
  split
  · decide
  · split
    · decide
    · exact List.countP_le_length

theorem countP_flatMap_lower_le (cs : List Char) :
    (cs.flatMap lower).countP isNumeral ≤ cs.length := by
  induction cs with
  | nil => exact Nat.le_refl _
  | cons c cs ih =>
      have hc := countP_lower_le c
      rw [List.flatMap_cons, List.countP_append, List.length_cons]
      omega

theorem scanned_scan (line : String) :
    ∀ word ∈ Word.scan line,
      Scanned word ∧ word.literalText.toList.length ≤ line.toList.length := by
  intro word hword
  rcases scanned_words _ word hword with ⟨hscanned, hlength⟩
  have hlower := countP_flatMap_lower_le (strip line.toList)
  have hstrip := (strip_sublist line.toList).length_le
  exact ⟨hscanned, by omega⟩

structure Legible (word : Word) : Prop where
  scanned : Scanned word
  isFinite : ∀ x, Numeric.readFloat? word.literalText = some x → Numeric.Double.IsFinite x

theorem legible_of_scanned {word : Word} (h : Scanned word)
    (hlength : word.literalText.toList.length ≤ 300) : Legible word where
  scanned := h
  isFinite := by
    intro x hread
    obtain ⟨l, hl⟩ := h.literal
    rw [hl] at hlength
    rw [← String.ofList_toList (s := word.literalText), hl] at hread
    exact Literal.isFinite_of_readFloat hlength hread

theorem legible_scan {line : String} (h : line.toList.length ≤ 300) :
    ∀ word ∈ Word.scan line, Legible word := by
  intro word hword
  rcases scanned_scan line word hword with ⟨hscanned, hlength⟩
  exact legible_of_scanned hscanned (hlength.trans h)

/-!
## Texts of words
-/

def spelled (word : Word) : List Char :=
  word.letter :: word.literalText.toList

theorem not_numeral_head_spelled {ws : List Word} (h : ∀ word ∈ ws, Scanned word) :
    ∀ c ∈ (ws.flatMap spelled).head?, isNumeral c = false := by
  intro c hc
  cases ws with
  | nil => cases hc
  | cons word rest =>
      cases hc
      exact not_numeral_of_isLower (h word List.mem_cons_self).isLower

theorem literal_of_scanned {word : Word} (h : Scanned word) :
    word.literal =
      if word.literalText.toList = [] then none
      else some (String.ofList word.literalText.toList) := by
  have hne := h.not_empty
  unfold Word.literalText
  cases hliteral : word.literal with
  | none => rfl
  | some text =>
      have htext : text ≠ "" := by
        rintro rfl
        exact hne hliteral
      have hlist : text.toList ≠ [] := fun hnil => htext (String.toList_eq_nil_iff.mp hnil)
      rw [Option.getD_some, if_neg hlist, String.ofList_toList]

theorem words_spelled {ws : List Word} (h : ∀ word ∈ ws, Scanned word) :
    words (ws.flatMap spelled) = ws := by
  induction ws with
  | nil => rw [List.flatMap_nil, words]
  | cons word rest ih =>
      have hword := h word List.mem_cons_self
      have hrest : ∀ w ∈ rest, Scanned w := fun w hw => h w (List.mem_cons_of_mem word hw)
      obtain ⟨l, hl⟩ := hword.literal
      have hsplit := splitLiteral_chars l (not_numeral_head_spelled hrest)
      rw [← hl] at hsplit
      rw [List.flatMap_cons, spelled, List.cons_append, words, if_pos hword.isLower]
      simp only [hsplit, ih hrest, ← literal_of_scanned hword]

theorem plain_literal {word : Word} (h : Scanned word) :
    (∀ c ∈ word.literalText.toList, isPlain c = true) ∧
      word.literalText.toList.flatMap lower = word.literalText.toList := by
  obtain ⟨l, hl⟩ := h.literal
  have hnumeral : ∀ c ∈ word.literalText.toList, isNumeral c = true := by
    rw [hl]
    exact l.isNumeral_chars
  constructor
  · intro c hc
    exact (plain_of_isNumeral (hnumeral c hc)).1
  · rw [List.flatMap_congr fun c hc => (plain_of_isNumeral (hnumeral c hc)).2]
    exact List.flatMap_singleton' _

theorem plain_text {word : Word} (h : Scanned word) :
    (∀ c ∈ word.text.toList, isPlain c = true) ∧ word.text.toList.flatMap lower = spelled word := by
  rcases plain_of_isLower h.isLower with ⟨hletter, hlower⟩
  rcases plain_literal h with ⟨hplain, hsame⟩
  have htext : word.text.toList = word.letter.toUpper :: word.literalText.toList :=
    String.toList_ofList
  constructor
  · rw [htext]
    exact List.forall_mem_cons.mpr ⟨hletter, hplain⟩
  · rw [htext, List.flatMap_cons, hlower, hsame]
    rfl

theorem lower_strip_intercalate {ws : List Word} (h : ∀ word ∈ ws, Scanned word) :
    (strip ([' '].intercalate (ws.map fun word => word.text.toList))).flatMap lower =
      ws.flatMap spelled := by
  induction ws with
  | nil =>
      rw [List.map_nil, List.intercalate_nil, strip]
      rfl
  | cons word rest ih =>
      have hrest : ∀ w ∈ rest, Scanned w := fun w hw => h w (List.mem_cons_of_mem word hw)
      rcases plain_text (h word List.mem_cons_self) with ⟨hplain, hlower⟩
      have hnil : strip [] = [] := by rw [strip]
      cases rest with
      | nil =>
          have hstrip := strip_append_of_isPlain hplain []
          rw [List.append_nil, hnil, List.append_nil] at hstrip
          rw [List.map_singleton, List.intercalate_singleton, hstrip, hlower,
            List.flatMap_singleton]
      | cons next others =>
          have hih := ih hrest
          rw [List.map_cons] at hih
          rw [List.map_cons, List.map_cons, List.intercalate_cons_cons, List.append_assoc,
            strip_append_of_isPlain hplain, List.singleton_append, strip_space,
            List.flatMap_append, hlower, hih]
          rfl

/-- Words that a scan can give are found in their texts. -/
theorem scan_intercalate {ws : List Word} (h : ∀ word ∈ ws, Scanned word) :
    Word.scan (" ".intercalate (ws.map Word.text)) = ws := by
  have hchars : (" ".intercalate (ws.map Word.text)).toList =
      [' '].intercalate (ws.map fun word => word.text.toList) := by
    rw [String.toList_intercalate, List.map_map]
    rfl
  unfold Word.scan
  rw [hchars, lower_strip_intercalate h, words_spelled h]

end Scan
end Extrusion
