import Mathlib
import Extrusion.Proofs.Word.Group

/-!
# Misplaced words

A word is misplaced where its letter is in neither vocabulary, and where it is a
parameter with no command in front of it.  Words that cannot be grouped are
refused for the first misplaced one.
-/

namespace Extrusion

def Word.Misplaced (word : Word) (before : List Word) : Prop :=
  word.role = .unrecognized ∨
    word.role = .parameter ∧ ∀ other ∈ before, other.role ≠ .command

def Word.placeFault (word : Word) : LineFault :=
  match word.role with
  | .parameter => .parameterBeforeCommand word.letter
  | _ => .unrecognizedLetter word.letter

structure FirstMisplaced (words before : List Word) (word : Word) (after : List Word) :
    Prop where
  split : words = before ++ word :: after
  misplaced : word.Misplaced before
  first : ∀ front other back, before = front ++ other :: back → ¬ other.Misplaced front

/-- All letters are in the two vocabularies, and the first word opens a command. -/
structure Groupable (words : List Word) : Prop where
  known : ∀ word ∈ words, word.letter ∈ commandLetters ∨ word.letter ∈ parameterLetters
  opened : ∀ word ∈ words.head?, word.letter ∈ commandLetters

variable {word : Word} {words before after front back : List Word}

/-!
# Roles
-/

theorem Word.role_eq_command_iff : word.role = .command ↔ word.letter ∈ commandLetters := by
  simp only [role, List.contains_iff_mem]
  by_cases hcommand : word.letter ∈ commandLetters
  · simp [hcommand]
  · by_cases hparameter : word.letter ∈ parameterLetters <;> simp [hcommand, hparameter]

theorem Word.role_ne_unrecognized_iff :
    word.role ≠ .unrecognized ↔
      word.letter ∈ commandLetters ∨ word.letter ∈ parameterLetters := by
  simp only [role, List.contains_iff_mem]
  by_cases hcommand : word.letter ∈ commandLetters
  · simp [hcommand]
  · by_cases hparameter : word.letter ∈ parameterLetters <;> simp [hcommand, hparameter]

theorem Word.not_misplaced_nil_iff : ¬ word.Misplaced [] ↔ word.role = .command := by
  unfold Misplaced
  cases word.role <;> simp

/-!
# The first misplaced word
-/

theorem groupable_iff :
    Groupable words ↔
      ∀ front word back, words = front ++ word :: back → ¬ word.Misplaced front := by
  constructor
  · rintro h front word back rfl (hunknown | ⟨hparameter, hnone⟩)
    · exact Word.role_ne_unrecognized_iff.mpr (h.known word (by simp)) hunknown
    · cases front with
      | nil =>
          have hcommand := Word.role_eq_command_iff.mpr (h.opened word rfl)
          rw [hparameter] at hcommand
          cases hcommand
      | cons first rest =>
          exact hnone first List.mem_cons_self (Word.role_eq_command_iff.mpr (h.opened first rfl))
  · intro h
    constructor
    · intro word hmem
      obtain ⟨front, back, hsplit⟩ := List.append_of_mem hmem
      exact Word.role_ne_unrecognized_iff.mp fun hrole => h front word back hsplit (Or.inl hrole)
    · intro word hhead
      obtain ⟨rest, hwords⟩ := List.head?_eq_some_iff.mp hhead
      exact Word.role_eq_command_iff.mp (Word.not_misplaced_nil_iff.mp (h [] word rest hwords))

theorem Groupable.concat (h : Groupable words) (hword : ¬ word.Misplaced words) :
    Groupable (words ++ [word]) where
  known := by
    intro other hmem
    rcases List.mem_append.mp hmem with hearlier | hlast
    · exact h.known other hearlier
    · rw [List.mem_singleton.mp hlast]
      exact Word.role_ne_unrecognized_iff.mp fun hrole => hword (Or.inl hrole)
  opened := by
    cases words with
    | nil =>
        intro other hother
        cases hother
        exact Word.role_eq_command_iff.mp (Word.not_misplaced_nil_iff.mp hword)
    | cons first rest => exact h.opened

theorem groupable_or_misplaced (words : List Word) :
    Groupable words ∨ ∃ before word after, FirstMisplaced words before word after := by
  induction words using List.reverseRecOn with
  | nil => exact Or.inl ⟨by simp, by simp⟩
  | append_singleton front last ih =>
      rcases ih with hfront | ⟨before, word, after, hsplit, hmisplaced, hfirst⟩
      · by_cases hlast : last.Misplaced front
        · exact Or.inr ⟨front, last, [], rfl, hlast, groupable_iff.mp hfront⟩
        · exact Or.inl (hfront.concat hlast)
      · refine Or.inr ⟨before, word, after ++ [last], ?_, hmisplaced, hfirst⟩
        rw [hsplit, List.append_assoc, List.cons_append]

namespace WordGroup

/-!
# Grouping
-/

variable {groups : List WordGroup} {fault : LineFault}

theorem ofWords_append_of_ok (h : ofWords front = .ok groups)
    (hback : ∀ word ∈ back.head?, word.role ≠ .parameter) :
    ofWords (front ++ back) = (ofWords back).map (groups ++ ·) := by
  obtain ⟨rfl, hgrouped⟩ := of_ofWords h
  clear h
  induction groups with
  | nil => cases hwords : ofWords back <;> simp [hwords, Except.map]
  | cons group rest ih =>
      rcases List.forall_mem_cons.mp hgrouped with ⟨hgroup, hrest⟩
      have hhead : ∀ word ∈ (rest.flatMap toWords ++ back).head?, word.role ≠ .parameter := by
        cases rest with
        | nil => exact hback
        | cons next others =>
            intro word hword
            cases hword
            rw [(hrest next List.mem_cons_self).head]
            decide
      rw [List.flatMap_cons, List.append_assoc, ofWords_toWords_append hgroup hhead, ih hrest]
      cases ofWords back <;> rfl

theorem groupable_of_ofWords (h : ofWords words = .ok groups) : Groupable words := by
  obtain ⟨rfl, hgrouped⟩ := of_ofWords h
  constructor
  · intro word hmem
    obtain ⟨group, hgroup, hword⟩ := List.mem_flatMap.mp hmem
    rcases List.mem_cons.mp hword with rfl | hparameter
    · exact Or.inl (Word.role_eq_command_iff.mp (hgrouped group hgroup).head)
    · have hrole := (hgrouped group hgroup).parameters word hparameter
      exact Word.role_ne_unrecognized_iff.mp (by simp [hrole])
  · intro word hhead
    cases groups with
    | nil => cases hhead
    | cons group rest =>
        cases hhead
        exact Word.role_eq_command_iff.mp (hgrouped group List.mem_cons_self).head

theorem groupable_dropWhile (h : Groupable (word :: words)) :
    Groupable (words.dropWhile isParameter) where
  known := by
    intro other hmem
    have hwords := (List.dropWhile_suffix isParameter).mem hmem
    exact h.known other (List.mem_cons_of_mem word hwords)
  opened := by
    intro other hhead
    have hmem := (List.dropWhile_suffix isParameter).mem (List.mem_of_mem_head? hhead)
    have hknown := Word.role_ne_unrecognized_iff.mpr
      (h.known other (List.mem_cons_of_mem word hmem))
    have hnot : isParameter other = false := by
      have hdropped := List.head?_dropWhile_not isParameter words
      rw [hhead] at hdropped
      exact hdropped
    rw [← Word.role_eq_command_iff]
    cases hrole : other.role with
    | command => rfl
    | parameter =>
        rw [isParameter_iff.mpr hrole] at hnot
        cases hnot
    | unrecognized => exact absurd hrole hknown

theorem exists_of_groupable (h : Groupable words) : ∃ groups, ofWords words = .ok groups := by
  fun_induction ofWords words with
  | case1 => exact ⟨[], rfl⟩
  | case2 word words hrole ih =>
      obtain ⟨groups, hgroups⟩ := ih (groupable_dropWhile h)
      rw [hgroups]
      exact ⟨_, rfl⟩
  | case3 word words hrole =>
      exact absurd (Word.role_eq_command_iff.mpr (h.opened word rfl)) (by simp [hrole])
  | case4 word words hrole =>
      exact absurd (Word.role_eq_command_iff.mpr (h.opened word rfl)) (by simp [hrole])

theorem ofWords_of_misplaced (h : word.role ≠ .command) :
    ofWords (word :: words) = .error word.placeFault := by
  unfold Word.placeFault
  cases hrole : word.role with
  | command => exact absurd hrole h
  | parameter => rw [ofWords, hrole]
  | unrecognized => rw [ofWords, hrole]

theorem ofWords_of_firstMisplaced (h : FirstMisplaced words before word after) :
    ofWords words = .error word.placeFault := by
  have hbefore := groupable_iff.mpr h.first
  rw [h.split]
  rcases h.misplaced with hunknown | ⟨hparameter, hnone⟩
  · obtain ⟨groups, hgroups⟩ := exists_of_groupable hbefore
    rw [ofWords_append_of_ok hgroups (by simp [hunknown]), ofWords_of_misplaced (by simp [hunknown])]
    rfl
  · cases before with
    | nil => exact ofWords_of_misplaced (by simp [hparameter])
    | cons first rest =>
        have hcommand := Word.role_eq_command_iff.mpr (hbefore.opened first rfl)
        exact absurd hcommand (hnone first List.mem_cons_self)

theorem ofWords_eq_error_iff :
    ofWords words = .error fault ↔
      ∃ before word after, FirstMisplaced words before word after ∧ fault = word.placeFault := by
  constructor
  · intro h
    rcases groupable_or_misplaced words with hgroupable | ⟨before, word, after, hfirst⟩
    · obtain ⟨groups, hgroups⟩ := exists_of_groupable hgroupable
      rw [hgroups] at h
      cases h
    · rw [ofWords_of_firstMisplaced hfirst] at h
      cases h
      exact ⟨before, word, after, hfirst, rfl⟩
  · rintro ⟨before, word, after, hfirst, rfl⟩
    exact ofWords_of_firstMisplaced hfirst

end WordGroup
end Extrusion
