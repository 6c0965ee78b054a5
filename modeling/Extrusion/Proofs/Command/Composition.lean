import Mathlib
import Extrusion.Proofs.Command.Strictness
import Extrusion.Proofs.Word.Misplaced

/-!
# Composing lists of words

Words can be grouped where none of them is misplaced, and the first misplaced
one is what they are refused for otherwise.  A list of words that is cut in
front of a command is read piece by piece.
-/

namespace Extrusion

variable {words front back : List Word}

/-!
## Cuts in front of commands
-/

theorem Groupable.of_append (h : Groupable (front ++ back))
    (hback : ∀ word ∈ back.head?, word.letter ∈ commandLetters) :
    Groupable front ∧ Groupable back := by
  constructor
  · constructor
    · intro word hmem
      exact h.known word (List.mem_append_left back hmem)
    · cases front with
      | nil => simp
      | cons first rest => exact h.opened
  · constructor
    · intro word hmem
      exact h.known word (List.mem_append_right front hmem)
    · exact hback

theorem WordGroup.ofWords_append_eq_ok_iff {groups : List WordGroup}
    (hback : ∀ word ∈ back.head?, word.letter ∈ commandLetters) :
    ofWords (front ++ back) = .ok groups ↔
      ∃ first second, ofWords front = .ok first ∧ ofWords back = .ok second ∧
        groups = first ++ second := by
  have hhead : ∀ word ∈ back.head?, word.role ≠ .parameter := by
    intro word hword
    rw [Word.role_eq_command_iff.mpr (hback word hword)]
    decide
  constructor
  · intro h
    rcases (groupable_of_ofWords h).of_append hback with ⟨hfrontGroupable, hbackGroupable⟩
    obtain ⟨first, hfirst⟩ := exists_of_groupable hfrontGroupable
    obtain ⟨second, hsecond⟩ := exists_of_groupable hbackGroupable
    rw [ofWords_append_of_ok hfirst hhead, hsecond] at h
    cases h
    exact ⟨first, second, hfirst, hsecond, rfl⟩
  · rintro ⟨first, second, hfirst, hsecond, rfl⟩
    rw [ofWords_append_of_ok hfirst hhead, hsecond]
    rfl

namespace Command

theorem ofWords_append_eq_ok_iff {skipUnknown : Bool} {commands : List (Command Float)}
    (hback : ∀ word ∈ back.head?, word.letter ∈ commandLetters) :
    ofWords skipUnknown (front ++ back) = .ok commands ↔
      ∃ first second, ofWords skipUnknown front = .ok first ∧
        ofWords skipUnknown back = .ok second ∧ commands = first ++ second := by
  constructor
  · intro h
    obtain ⟨groups, hgroups, hread⟩ := exists_groups_iff.mp h
    obtain ⟨groups₁, groups₂, hgroups₁, hgroups₂, rfl⟩ :=
      (WordGroup.ofWords_append_eq_ok_iff hback).mp hgroups
    obtain ⟨first, second, hfirst, hsecond, rfl⟩ := mapM_append_eq_ok_iff.mp hread
    exact ⟨first, second, exists_groups_iff.mpr ⟨groups₁, hgroups₁, hfirst⟩,
      exists_groups_iff.mpr ⟨groups₂, hgroups₂, hsecond⟩, rfl⟩
  · rintro ⟨first, second, hfirst, hsecond, rfl⟩
    obtain ⟨groups₁, hgroups₁, hread₁⟩ := exists_groups_iff.mp hfirst
    obtain ⟨groups₂, hgroups₂, hread₂⟩ := exists_groups_iff.mp hsecond
    refine exists_groups_iff.mpr ⟨groups₁ ++ groups₂, ?_, ?_⟩
    · exact (WordGroup.ofWords_append_eq_ok_iff hback).mpr
        ⟨groups₁, groups₂, hgroups₁, hgroups₂, rfl⟩
    · exact mapM_append_eq_ok_iff.mpr ⟨first, second, hread₁, hread₂, rfl⟩

end Command

/-!
## The rule
-/

/-- How a list of words is grouped, and read in front of further words. -/
structure GroupingRule (words : List Word) : Prop where
  succeeds : (∃ groups, WordGroup.ofWords words = .ok groups) ↔ Groupable words
  groups : ∀ groups, WordGroup.ofWords words = .ok groups →
    groups.flatMap WordGroup.toWords = words ∧ ∀ group ∈ groups, group.Grouped
  fails : ∀ fault, WordGroup.ofWords words = .error fault ↔
    ∃ before word after, FirstMisplaced words before word after ∧ fault = word.placeFault
  composes : ∀ skipUnknown back commands, (∀ word ∈ back.head?, word.letter ∈ commandLetters) →
    (Command.ofWords skipUnknown (words ++ back) = .ok commands ↔
      ∃ first second, Command.ofWords skipUnknown words = .ok first ∧
        Command.ofWords skipUnknown back = .ok second ∧ commands = first ++ second)

theorem groupingRule (words : List Word) : GroupingRule words where
  succeeds := by
    constructor
    · rintro ⟨groups, hgroups⟩
      exact WordGroup.groupable_of_ofWords hgroups
    · exact WordGroup.exists_of_groupable
  groups := by
    intro groups h
    rcases WordGroup.of_ofWords h with ⟨hwords, hgrouped⟩
    exact ⟨hwords.symm, hgrouped⟩
  fails := by
    intro fault
    exact WordGroup.ofWords_eq_error_iff
  composes := by
    intro skipUnknown back commands hback
    exact Command.ofWords_append_eq_ok_iff hback

end Extrusion
