import Mathlib
import Extrusion.Command.Reader
import Extrusion.Proofs.Results

/-!
# Reading parameters

Parameters are read where each word has an allowed letter and carries a number.
Each letter has then the last number that was given for it.
-/

namespace Extrusion

/-!
## Numbers by letter
-/

def Named (words : List Word) (letter : Char) : Prop :=
  ∃ word ∈ words, word.letter = letter

def lastNumber? (words : List Word) (letter : Char) : Option Float :=
  words.reverse.findSome? fun word =>
    if word.letter = letter then Numeric.readFloat? word.literalText else none

def Numbered (words : List Word) : Prop :=
  ∀ word ∈ words, (Numeric.readFloat? word.literalText).isSome = true

theorem lastNumber_cons (word : Word) (words : List Word) (letter : Char) :
    lastNumber? (word :: words) letter =
      (lastNumber? words letter).or
        (if word.letter = letter then Numeric.readFloat? word.literalText else none) := by
  unfold lastNumber?
  rw [List.reverse_cons, List.findSome?_append, List.findSome?_singleton]

theorem exists_of_lastNumber {words : List Word} {letter : Char} {value : Float}
    (h : lastNumber? words letter = some value) :
    ∃ word ∈ words, word.letter = letter ∧ Numeric.readFloat? word.literalText = some value := by
  rcases List.exists_of_findSome?_eq_some h with ⟨word, hmem, hword⟩
  by_cases hletter : word.letter = letter
  · rw [if_pos hletter] at hword
    exact ⟨word, List.mem_reverse.mp hmem, hletter, hword⟩
  · rw [if_neg hletter] at hword
    cases hword

theorem isSome_lastNumber {words : List Word} (h : Numbered words) (letter : Char) :
    (lastNumber? words letter).isSome = true ↔ Named words letter := by
  constructor
  · intro hsome
    obtain ⟨value, hvalue⟩ := Option.isSome_iff_exists.mp hsome
    rcases exists_of_lastNumber hvalue with ⟨word, hmem, hletter, _⟩
    exact ⟨word, hmem, hletter⟩
  · rintro ⟨word, hmem, hletter⟩
    apply List.findSome?_isSome_iff.mpr
    refine ⟨word, List.mem_reverse.mpr hmem, ?_⟩
    rw [if_pos hletter]
    exact h word hmem

/-!
## Reading parameters
-/

namespace Parameters

def add (code : Code) (allowed : List Char) (parameters : Parameters Float) (word : Word) :
    Except LineFault (Parameters Float) := do
  checkAllowed code allowed word
  let value ← readNumber word
  return parameters.insert word.letter value

section

variable {code : Code} {allowed : List Char} {p q : Parameters Float} {words : List Word}

theorem checkAllowed_eq_ok_iff {word : Word} {result : Unit} :
    checkAllowed code allowed word = .ok result ↔ word.letter ∈ allowed := by
  unfold checkAllowed
  rw [List.contains_eq_mem]
  by_cases hmem : word.letter ∈ allowed
  · simp [hmem]
  · simp [hmem]

theorem readNumber_eq_ok_iff {word : Word} {value : Float} :
    readNumber word = .ok value ↔ Numeric.readFloat? word.literalText = some value := by
  unfold readNumber
  cases Numeric.readFloat? word.literalText with
  | none => simp
  | some x => simp

theorem add_eq_ok_iff {word : Word} :
    add code allowed p word = .ok q ↔
      word.letter ∈ allowed ∧
        ∃ value, Numeric.readFloat? word.literalText = some value ∧
          q = p.insert word.letter value := by
  unfold add
  rw [bind_eq_ok_iff]
  constructor
  · rintro ⟨_, hcheck, h⟩
    obtain ⟨value, hvalue, hq⟩ := bind_eq_ok_iff.mp h
    cases hq
    exact ⟨checkAllowed_eq_ok_iff.mp hcheck, value, readNumber_eq_ok_iff.mp hvalue, rfl⟩
  · rintro ⟨hmem, value, hvalue, rfl⟩
    exact ⟨(), checkAllowed_eq_ok_iff.mpr hmem,
      bind_eq_ok_iff.mpr ⟨value, readNumber_eq_ok_iff.mpr hvalue, rfl⟩⟩

theorem foldlM_add_cons_eq_ok_iff {word : Word} :
    (word :: words).foldlM (add code allowed) p = .ok q ↔
      ∃ p', add code allowed p word = .ok p' ∧ words.foldlM (add code allowed) p' = .ok q := by
  rw [List.foldlM_cons, bind_eq_ok_iff]

theorem exists_foldlM_add :
    (∃ q, words.foldlM (add code allowed) p = .ok q) ↔
      (∀ word ∈ words, word.letter ∈ allowed) ∧ Numbered words := by
  induction words generalizing p with
  | nil => simp [Numbered, pure, Except.pure]
  | cons word words ih =>
      constructor
      · rintro ⟨q, h⟩
        obtain ⟨p', hadd, hrest⟩ := foldlM_add_cons_eq_ok_iff.mp h
        rcases add_eq_ok_iff.mp hadd with ⟨hmem, value, hnumber, _⟩
        rcases ih.mp ⟨q, hrest⟩ with ⟨hallowed, hnumbers⟩
        constructor
        · exact List.forall_mem_cons.mpr ⟨hmem, hallowed⟩
        · exact List.forall_mem_cons.mpr ⟨Option.isSome_iff_exists.mpr ⟨value, hnumber⟩, hnumbers⟩
      · rintro ⟨hallowed, hnumbers⟩
        rcases List.forall_mem_cons.mp hallowed with ⟨hmem, hallowed⟩
        rcases List.forall_mem_cons.mp hnumbers with ⟨hnumber, hnumbers⟩
        obtain ⟨value, hvalue⟩ := Option.isSome_iff_exists.mp hnumber
        obtain ⟨q, hrest⟩ := (ih (p := p.insert word.letter value)).mpr ⟨hallowed, hnumbers⟩
        exact ⟨q, foldlM_add_cons_eq_ok_iff.mpr
          ⟨_, add_eq_ok_iff.mpr ⟨hmem, value, hvalue, rfl⟩, hrest⟩⟩

theorem get_insert (p : Parameters Float) (letter : Char) (value : Float) (wanted : Char) :
    (p.insert letter value).get? wanted =
      if letter = wanted then some value else p.get? wanted := by
  show ((letter, value) :: p.assignments).lookup wanted = _
  by_cases hletter : letter = wanted
  · subst letter
    rw [if_pos rfl, List.lookup_cons_self]
  · have hne : (wanted == letter) = false := beq_false_of_ne fun h => hletter h.symm
    rw [if_neg hletter, List.lookup_cons, hne]
    rfl

theorem get_of_foldlM_add (h : words.foldlM (add code allowed) p = .ok q) (letter : Char) :
    q.get? letter = (lastNumber? words letter).or (p.get? letter) := by
  induction words generalizing p with
  | nil =>
      cases h
      rfl
  | cons word words ih =>
      obtain ⟨p', hadd, hrest⟩ := foldlM_add_cons_eq_ok_iff.mp h
      rcases add_eq_ok_iff.mp hadd with ⟨_, value, hnumber, rfl⟩
      rw [ih hrest, get_insert, lastNumber_cons, Option.or_assoc, hnumber]
      by_cases hletter : word.letter = letter
      · rw [if_pos hletter, if_pos hletter]
        rfl
      · rw [if_neg hletter, if_neg hletter]
        rfl

theorem isEmpty_of_foldlM_add (h : words.foldlM (add code allowed) p = .ok q) :
    q.isEmpty = (words.isEmpty && p.isEmpty) := by
  induction words generalizing p with
  | nil =>
      cases h
      rfl
  | cons word words ih =>
      obtain ⟨p', hadd, hrest⟩ := foldlM_add_cons_eq_ok_iff.mp h
      rcases add_eq_ok_iff.mp hadd with ⟨_, value, _, rfl⟩
      rw [ih hrest]
      exact Bool.and_false _

theorem exists_read :
    (∃ p, read code allowed words = .ok p) ↔
      (∀ word ∈ words, word.letter ∈ allowed) ∧ Numbered words :=
  exists_foldlM_add

theorem get_of_read (h : read code allowed words = .ok p) (letter : Char) :
    p.get? letter = lastNumber? words letter :=
  (get_of_foldlM_add h letter).trans (Option.or_none)

theorem isEmpty_of_read (h : read code allowed words = .ok p) : p.isEmpty = words.isEmpty :=
  (isEmpty_of_foldlM_add h).trans (Bool.and_true _)

end

end Parameters

end Extrusion
