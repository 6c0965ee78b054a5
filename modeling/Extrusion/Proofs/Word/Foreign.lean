import Extrusion.Proofs.Word.Tiling

/-!
# Characters beyond ASCII

A scan passes over the characters beyond ASCII, except for the kelvin sign and the
dotted capital i: their lower case has a letter from a to z.  All others may be
crossed out, and whatever lower case they have, it makes no difference as long as
it is beyond ASCII too.  The two letters may be spelled in ASCII.
-/

namespace Extrusion
namespace Scan

/-- Neither a blank nor in ASCII. -/
def isForeign (c : Char) : Bool :=
  decide (128 ≤ c.toNat) && !Text.isBlank c

/-- The characters beyond ASCII that have a letter from a to z in their lower case. -/
def isLetterlike (c : Char) : Bool :=
  c == '\u212A' || c == '\u0130'

def crossOut (c : Char) : Char :=
  if isForeign c then '#' else c

def crossOutMute (c : Char) : Char :=
  if isLetterlike c then c else crossOut c

def spell (c : Char) : List Char :=
  if c = '\u212A' then ['k']
  else if c = '\u0130' then ['i', '#']
  else [crossOut c]

/-- The lower case of a character, without saying which other character beyond ASCII
stands for one there. -/
structure LowerCase (c : Char) (lowered : List Char) : Prop where
  ascii : c.toNat < 128 → lowered = [c.toLower]
  kelvin : c = '\u212A' → lowered = ['k']
  dotted : c = '\u0130' → lowered = ['i', '\u0307']
  foreign : 128 ≤ c.toNat → isLetterlike c = false → ∃ d : Char, 128 ≤ d.toNat ∧ lowered = [d]

/-!
## Masks

Words see a text in lower case through a mask that only leaves letters and what
literals are made of.
-/

def mask (c : Char) : Char :=
  if c.isLower || isNumeral c then c else '#'

theorem mask_cases (c : Char) : mask c = c ∨ mask c = '#' := by
  unfold mask
  split
  · exact Or.inl rfl
  · exact Or.inr rfl

theorem mask_of_isLower {c : Char} (h : c.isLower = true) : mask c = c :=
  if_pos (by rw [h, Bool.true_or])

theorem mask_of_isNumeral {c : Char} (h : isNumeral c = true) : mask c = c :=
  if_pos (by rw [h, Bool.or_true])

theorem mask_of_foreign {c : Char} (h : 128 ≤ c.toNat) : mask c = '#' := by
  apply if_neg
  rw [Bool.or_eq_true]
  rintro (hlower | hnumeral)
  · exact absurd (toNat_lt_of_isLower hlower) (Nat.not_lt_of_le h)
  · exact absurd (toNat_lt_of_isNumeral hnumeral) (Nat.not_lt_of_le h)

theorem isLower_mask (c : Char) : (mask c).isLower = c.isLower := by
  unfold mask
  split
  · rfl
  · rename_i h
    rw [Bool.or_eq_true, not_or] at h
    rw [Bool.eq_false_iff.mpr h.1]
    rfl

theorem isDigit_mask (c : Char) : (mask c).isDigit = c.isDigit := by
  unfold mask
  split
  · rfl
  · rename_i h
    rw [Bool.or_eq_true, not_or] at h
    cases hdigit : c.isDigit with
    | false => rfl
    | true =>
        have hnumeral : isNumeral c = true := by simp [isNumeral, hdigit]
        exact absurd hnumeral h.2

theorem mask_eq_iff {c d : Char} (hd : isNumeral d = true) : mask c = d ↔ c = d := by
  constructor
  · intro h
    rcases mask_cases c with hkept | hhidden
    · exact hkept.symm.trans h
    · rw [hhidden] at h
      rw [← h] at hd
      cases hd
  · rintro rfl
    exact mask_of_isNumeral hd

theorem splitSign_map_mask (cs : List Char) :
    splitSign (cs.map mask) = ((splitSign cs).1, (splitSign cs).2.map mask) := by
  unfold splitSign
  cases cs with
  | nil => rfl
  | cons c cs =>
      by_cases hminus : c = '-'
      · subst hminus
        rfl
      · by_cases hplus : c = '+'
        · subst hplus
          rfl
        · have hminus' : mask c ≠ '-' := mt (mask_eq_iff rfl).mp hminus
          have hplus' : mask c ≠ '+' := mt (mask_eq_iff rfl).mp hplus
          simp [hminus, hplus, hminus', hplus']

theorem splitPoint_map_mask (cs : List Char) :
    splitPoint (cs.map mask) = ((splitPoint cs).1, (splitPoint cs).2.map mask) := by
  unfold splitPoint
  cases cs with
  | nil => rfl
  | cons c cs =>
      by_cases hpoint : c = '.'
      · subst hpoint
        rfl
      · have hpoint' : mask c ≠ '.' := mt (mask_eq_iff rfl).mp hpoint
        simp [hpoint, hpoint']

theorem splitDigits_map_mask (cs : List Char) :
    Text.splitDigits (cs.map mask) =
      ((Text.splitDigits cs).1, (Text.splitDigits cs).2.map mask) := by
  have hdigits : Char.isDigit ∘ mask = Char.isDigit := funext isDigit_mask
  have hkept : (cs.takeWhile Char.isDigit).map mask = cs.takeWhile Char.isDigit := by
    have hsame : ∀ c ∈ cs.takeWhile Char.isDigit, mask c = id c := by
      intro c hc
      have hdigit := List.mem_takeWhile_imp hc
      exact mask_of_isNumeral (by simp [isNumeral, hdigit])
    rw [List.map_congr_left hsame, List.map_id]
  unfold Text.splitDigits
  rw [List.takeWhile_map, List.dropWhile_map, hdigits, hkept]

theorem splitLiteral_map_mask (cs : List Char) :
    splitLiteral (cs.map mask) = ((splitLiteral cs).1, (splitLiteral cs).2.map mask) := by
  simp only [splitLiteral, splitSign_map_mask, splitDigits_map_mask, splitPoint_map_mask]

theorem words_map_mask (cs : List Char) : words (cs.map mask) = words cs := by
  fun_induction words cs with
  | case1 => rw [List.map_nil, words]
  | case2 c cs hc literal ih =>
      rw [List.map_cons, words, isLower_mask, if_pos hc, splitLiteral_map_mask, ih,
        mask_of_isLower hc]
  | case3 c cs hc ih => rw [List.map_cons, words, isLower_mask, if_neg hc, ih]

/-- Texts in lower case have the same words if they look alike through the mask. -/
theorem words_congr {cs ds : List Char} (h : cs.map mask = ds.map mask) : words cs = words ds := by
  rw [← words_map_mask, h, words_map_mask]

/-!
## Comments and blanks

What marks a comment or a blank is kept, and nothing else becomes such a mark.
-/

structure KeepsMarks (replace : Char → List Char) : Prop where
  marks : ∀ c, isPlain c = false ∨ c = ')' → replace c = [c]
  others : ∀ c, isPlain c = true → c ≠ ')' → ∀ d ∈ replace c, isPlain d = true ∧ d ≠ ')'

namespace KeepsMarks

variable {replace : Char → List Char} {text : List Char} {mark : Char}

theorem eq_of_mem (h : KeepsMarks replace) {c : Char} (hmark : isPlain mark = false ∨ mark = ')')
    (hmem : mark ∈ replace c) : mark = c := by
  by_cases hc : isPlain c = false ∨ c = ')'
  · rw [h.marks c hc] at hmem
    exact List.mem_singleton.mp hmem
  · rw [not_or, Bool.not_eq_false] at hc
    rcases h.others c hc.1 hc.2 mark hmem with ⟨hplain, hclose⟩
    rcases hmark with hnot | heq
    · rw [hnot] at hplain
      cases hplain
    · exact absurd heq hclose

theorem not_mem (h : KeepsMarks replace) (hmark : isPlain mark = false ∨ mark = ')')
    (hnot : mark ∉ text) : mark ∉ text.flatMap replace := by
  intro hmem
  obtain ⟨c, hc, hmem⟩ := List.mem_flatMap.mp hmem
  rw [h.eq_of_mem hmark hmem] at hnot
  exact hnot hc

end KeepsMarks

theorem Stripped.keepAll {piece text kept : List Char} (hpiece : ∀ c ∈ piece, isPlain c = true)
    (h : Stripped text kept) : Stripped (piece ++ text) (piece ++ kept) := by
  induction piece with
  | nil => exact h
  | cons c cs ih =>
      rcases List.forall_mem_cons.mp hpiece with ⟨hc, hcs⟩
      simp only [isPlain, Bool.and_eq_true, bne_iff_ne, Bool.not_eq_true'] at hc
      exact .keep c hc.2 hc.1.2 (fun hopen => absurd hopen hc.1.1) (ih hcs)

theorem Stripped.replaced {replace : Char → List Char} (hr : KeepsMarks replace)
    {text kept : List Char} (h : Stripped text kept) :
    Stripped (text.flatMap replace) (kept.flatMap replace) := by
  have hopen : replace '(' = ['('] := hr.marks '(' (Or.inl rfl)
  have hclose : replace ')' = [')'] := hr.marks ')' (Or.inr rfl)
  have hsemicolon : replace ';' = [';'] := hr.marks ';' (Or.inl rfl)
  have hline : replace '\n' = ['\n'] := hr.marks '\n' (Or.inl rfl)
  induction h with
  | nil => exact .nil
  | comment inner hinner _ ih =>
      rw [List.flatMap_cons, List.flatMap_append, List.flatMap_cons, hopen, hclose]
      exact .comment _ (hr.not_mem (Or.inr rfl) hinner) ih
  | @remark inner text kept hinner hend _ ih =>
      have hhead : ∀ c ∈ (text.flatMap replace).head?, c = '\n' := by
        cases text with
        | nil => simp
        | cons c cs =>
            rw [hend c rfl, List.flatMap_cons, hline]
            simp
      have hremark := Stripped.remark (inner.flatMap replace) (hr.not_mem (Or.inl rfl) hinner)
        hhead ih
      rw [List.flatMap_cons, List.flatMap_append, hsemicolon]
      exact hremark
  | blank c hblank _ ih =>
      have hmark : isPlain c = false := by simp [isPlain, hblank]
      rw [List.flatMap_cons, hr.marks c (Or.inl hmark)]
      exact .blank c hblank ih
  | keep c hblank hremark hcomment _ ih =>
      rw [List.flatMap_cons, List.flatMap_cons]
      by_cases hmark : c = '(' ∨ c = ')'
      · -- A parenthesis stays, and is not closed by anything that replaces a character.
        have hself : replace c = [c] := by
          rcases hmark with rfl | rfl
          · exact hopen
          · exact hclose
        rw [hself]
        exact .keep c hblank hremark (fun heq => hr.not_mem (Or.inr rfl) (hcomment heq)) ih
      · rw [not_or] at hmark
        have hplain : isPlain c = true := by simp [isPlain, hmark.1, hremark, hblank]
        exact ih.keepAll fun d hd => (hr.others c hplain hmark.2 d hd).1

theorem strip_replaced {replace : Char → List Char} (hr : KeepsMarks replace) (cs : List Char) :
    strip (cs.flatMap replace) = (strip cs).flatMap replace :=
  ((stripped_strip cs).replaced hr).eq_strip.symm

/-- What replaces a character makes no difference to a scan where it leaves comments and
blanks alone and has a lower case that looks the same. -/
theorem scan_replaced {replace : Char → List Char} (hr : KeepsMarks replace)
    (hlower : ∀ c, ((replace c).flatMap lower).map mask = (lower c).map mask) (line : String) :
    Word.scan (String.ofList (line.toList.flatMap replace)) = Word.scan line := by
  unfold Word.scan
  rw [String.toList_ofList, strip_replaced hr, List.flatMap_assoc]
  apply words_congr
  rw [List.map_flatMap, List.map_flatMap]
  exact congrArg (fun f => (strip line.toList).flatMap f) (funext hlower)

/-!
## Characters beyond ASCII
-/

theorem toNat_of_isForeign {c : Char} (h : isForeign c = true) : 128 ≤ c.toNat := by
  rw [isForeign, Bool.and_eq_true, decide_eq_true_iff] at h
  exact h.1

theorem isForeign_of_isLetterlike {c : Char} (h : isLetterlike c = true) : isForeign c = true := by
  rw [isLetterlike, Bool.or_eq_true, beq_iff_eq, beq_iff_eq] at h
  rcases h with rfl | rfl <;> decide

theorem not_foreign_of_mark {c : Char} (h : isPlain c = false ∨ c = ')') : isForeign c = false := by
  rcases h with hmark | rfl
  · by_cases hblank : Text.isBlank c = true
    · rw [isForeign, hblank, Bool.not_true, Bool.and_false]
    · simp only [isPlain, hblank, Bool.not_false, Bool.and_true, Bool.and_eq_false_iff,
        bne_eq_false_iff_eq] at hmark
      rcases hmark with rfl | rfl <;> decide
  · decide

theorem lower_of_foreign {c : Char} (h : 128 ≤ c.toNat) (hmute : isLetterlike c = false) :
    lower c = [c] := by
  rw [isLetterlike, Bool.or_eq_false_iff, beq_eq_false_iff_ne, beq_eq_false_iff_ne] at hmute
  have hupper : ¬ c.isUpper = true := by
    intro hupper
    simp only [Char.isUpper, decide_eq_true_eq] at hupper
    have hle : c.toNat ≤ 'Z'.toNat := hupper.2
    exact absurd (Nat.lt_of_le_of_lt hle (by decide)) (Nat.not_lt_of_le h)
  rw [lower, if_neg hmute.1, if_neg hmute.2, Char.toLower_eq_of_not_isUpper hupper]

theorem mask_lower_of_foreign {c : Char} (h : 128 ≤ c.toNat) (hmute : isLetterlike c = false) :
    (lower c).map mask = ['#'] := by
  rw [lower_of_foreign h hmute, List.map_singleton, mask_of_foreign h]

theorem crossOutMute_cases (c : Char) :
    crossOutMute c = c ∨ 128 ≤ c.toNat ∧ isLetterlike c = false ∧ crossOutMute c = '#' := by
  unfold crossOutMute crossOut
  by_cases hletter : isLetterlike c = true
  · exact Or.inl (if_pos hletter)
  · rw [if_neg hletter]
    by_cases hforeign : isForeign c = true
    · exact Or.inr ⟨toNat_of_isForeign hforeign, Bool.eq_false_iff.mpr hletter, if_pos hforeign⟩
    · exact Or.inl (if_neg hforeign)

theorem spell_cases (c : Char) :
    c = '\u212A' ∨ c = '\u0130' ∨ isLetterlike c = false ∧ spell c = [crossOutMute c] := by
  by_cases hkelvin : c = '\u212A'
  · exact Or.inl hkelvin
  · by_cases hdotted : c = '\u0130'
    · exact Or.inr (Or.inl hdotted)
    · have hletter : isLetterlike c = false := by simp [isLetterlike, hkelvin, hdotted]
      refine Or.inr (Or.inr ⟨hletter, ?_⟩)
      rw [spell, if_neg hkelvin, if_neg hdotted, crossOutMute, hletter]
      rfl

theorem keepsMarks_crossOutMute : KeepsMarks fun c => [crossOutMute c] where
  marks := by
    intro c hmark
    have hforeign := not_foreign_of_mark hmark
    have hletter : ¬ isLetterlike c = true := by
      intro hletter
      rw [isForeign_of_isLetterlike hletter] at hforeign
      cases hforeign
    show [crossOutMute c] = [c]
    rw [crossOutMute, if_neg hletter, crossOut, hforeign]
    rfl
  others := by
    intro c hplain hclose d hd
    rw [List.mem_singleton.mp hd]
    rcases crossOutMute_cases c with hsame | ⟨_, _, hcrossed⟩
    · rw [hsame]
      exact ⟨hplain, hclose⟩
    · rw [hcrossed]
      decide

theorem keepsMarks_spell : KeepsMarks spell where
  marks := by
    intro c hmark
    rcases spell_cases c with rfl | rfl | ⟨_, hspell⟩
    · exact absurd hmark (by decide)
    · exact absurd hmark (by decide)
    · rw [hspell]
      exact keepsMarks_crossOutMute.marks c hmark
  others := by
    intro c hplain hclose
    rcases spell_cases c with rfl | rfl | ⟨_, hspell⟩
    · exact List.forall_mem_singleton.mpr (by decide)
    · exact List.forall_mem_cons.mpr ⟨by decide, List.forall_mem_singleton.mpr (by decide)⟩
    · rw [hspell]
      exact keepsMarks_crossOutMute.others c hplain hclose

theorem mask_lower_crossOutMute (c : Char) :
    (([crossOutMute c] : List Char).flatMap lower).map mask = (lower c).map mask := by
  rw [List.flatMap_singleton]
  rcases crossOutMute_cases c with hsame | ⟨hforeign, hmute, hcrossed⟩
  · rw [hsame]
  · rw [hcrossed, mask_lower_of_foreign hforeign hmute]
    decide

theorem mask_lower_spell (c : Char) : ((spell c).flatMap lower).map mask = (lower c).map mask := by
  rcases spell_cases c with rfl | rfl | ⟨_, hspell⟩
  · decide
  · decide
  · rw [hspell]
    exact mask_lower_crossOutMute c

theorem ascii_spell (c : Char) : ∀ d ∈ spell c, d.toNat < 128 ∨ Text.isBlank d = true := by
  rcases spell_cases c with rfl | rfl | ⟨hmute, hspell⟩
  · exact List.forall_mem_singleton.mpr (by decide)
  · exact List.forall_mem_cons.mpr ⟨by decide, List.forall_mem_singleton.mpr (by decide)⟩
  · intro d hd
    rw [hspell, crossOutMute, hmute, List.mem_singleton] at hd
    rw [hd]
    show (crossOut c).toNat < 128 ∨ Text.isBlank (crossOut c) = true
    unfold crossOut
    by_cases hforeign : isForeign c = true
    · rw [if_pos hforeign]
      exact Or.inl (by decide)
    · rw [if_neg hforeign]
      rw [isForeign, Bool.and_eq_true, decide_eq_true_iff, Bool.not_eq_true', not_and_or,
        Nat.not_le, Bool.not_eq_false] at hforeign
      exact hforeign

theorem LowerCase.map_mask {c : Char} {lowered : List Char} (h : LowerCase c lowered) :
    lowered.map mask = (lower c).map mask := by
  by_cases hkelvin : c = '\u212A'
  · rw [h.kelvin hkelvin, hkelvin]
    decide
  · by_cases hdotted : c = '\u0130'
    · rw [h.dotted hdotted, hdotted]
      decide
    · by_cases hascii : c.toNat < 128
      · rw [h.ascii hascii, lower, if_neg hkelvin, if_neg hdotted]
      · have hforeign := Nat.le_of_not_lt hascii
        have hmute : isLetterlike c = false := by simp [isLetterlike, hkelvin, hdotted]
        obtain ⟨d, hd, rfl⟩ := h.foreign hforeign hmute
        rw [mask_lower_of_foreign hforeign hmute, List.map_singleton, mask_of_foreign hd]

theorem lowerCase_lower (c : Char) : LowerCase c (lower c) where
  ascii := by
    intro hascii
    have hkelvin : c ≠ '\u212A' := by
      rintro rfl
      exact absurd hascii (by decide)
    have hdotted : c ≠ '\u0130' := by
      rintro rfl
      exact absurd hascii (by decide)
    rw [lower, if_neg hkelvin, if_neg hdotted]
  kelvin := by
    rintro rfl
    rfl
  dotted := by
    rintro rfl
    rfl
  foreign := fun hforeign hmute => ⟨c, hforeign, lower_of_foreign hforeign hmute⟩

theorem map_mask_flatten {cs : List Char} {pieces : List (List Char)}
    (h : List.Forall₂ LowerCase cs pieces) :
    pieces.flatten.map mask = (cs.flatMap lower).map mask := by
  induction h with
  | nil => rfl
  | cons hc _ ih =>
      rw [List.flatten_cons, List.map_append, hc.map_mask, ih, List.flatMap_cons, List.map_append]

/-!
## The rule
-/

structure ForeignRule (line : String) : Prop where
  crossed : Word.scan (String.ofList (line.toList.map crossOutMute)) = Word.scan line
  spelled : Word.scan (String.ofList (line.toList.flatMap spell)) = Word.scan line
  ascii : ∀ c ∈ line.toList.flatMap spell, c.toNat < 128 ∨ Text.isBlank c = true
  lowers : List.Forall₂ LowerCase (strip line.toList) ((strip line.toList).map lower)
  /-- Any lower case does, as long as nothing else comes to ASCII by it. -/
  lowered : ∀ pieces, List.Forall₂ LowerCase (strip line.toList) pieces →
    words pieces.flatten = Word.scan line

theorem foreignRule (line : String) : ForeignRule line where
  crossed := by
    rw [List.map_eq_flatMap]
    exact scan_replaced keepsMarks_crossOutMute mask_lower_crossOutMute line
  spelled := scan_replaced keepsMarks_spell mask_lower_spell line
  ascii := by
    intro c hc
    obtain ⟨d, _, hmem⟩ := List.mem_flatMap.mp hc
    exact ascii_spell d c hmem
  lowers := by
    rw [List.forall₂_map_right_iff, List.forall₂_same]
    intro c _
    exact lowerCase_lower c
  lowered := by
    intro pieces h
    exact words_congr (map_mask_flatten h)

/-- Crossing out the two as well takes a word from a line. -/
theorem kelvin_sign_opens_word :
    Word.scan (String.ofList ("\u212A5".toList.map crossOut)) ≠ Word.scan "\u212A5" := by
  decide +kernel

end Scan
end Extrusion
