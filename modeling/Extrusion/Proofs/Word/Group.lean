import Mathlib.Data.List.TakeWhile
import Extrusion.Proofs.Results
import Extrusion.Word.Group

/-!
# Groups of words

Words can be grouped when they are the words of some groups, one behind the
other, and then those are the groups.
-/

namespace Extrusion
namespace WordGroup

structure Grouped (group : WordGroup) : Prop where
  head : group.head.role = .command
  parameters : ∀ word ∈ group.parameters, word.role = .parameter

theorem isParameter_iff {word : Word} : isParameter word = true ↔ word.role = .parameter :=
  decide_eq_true_iff

theorem ofWords_command {word : Word} (h : word.role = .command) (words : List Word) :
    ofWords (word :: words) =
      (ofWords (words.dropWhile isParameter)).map
        (⟨word, words.takeWhile isParameter⟩ :: ·) := by
  rw [ofWords, h]
  cases ofWords (words.dropWhile isParameter) <;> rfl

theorem ofWords_toWords_append {group : WordGroup} (h : group.Grouped) {rest : List Word}
    (hrest : ∀ word ∈ rest.head?, word.role ≠ .parameter) :
    ofWords (group.toWords ++ rest) = (ofWords rest).map (group :: ·) := by
  have hparameters : ∀ word ∈ group.parameters, isParameter word = true :=
    fun word hmem => isParameter_iff.mpr (h.parameters word hmem)
  have htake : rest.takeWhile isParameter = [] ∧ rest.dropWhile isParameter = rest := by
    cases rest with
    | nil => exact ⟨rfl, rfl⟩
    | cons word words =>
        have hnot : ¬isParameter word = true := fun hp => hrest word rfl (isParameter_iff.mp hp)
        exact ⟨List.takeWhile_cons_of_neg hnot, List.dropWhile_cons_of_neg hnot⟩
  unfold toWords
  rw [List.cons_append, ofWords_command h.head, List.takeWhile_append_of_pos hparameters,
    List.dropWhile_append_of_pos hparameters, htake.1, htake.2, List.append_nil]

theorem ofWords_flatMap {groups : List WordGroup} (h : ∀ group ∈ groups, group.Grouped) :
    ofWords (groups.flatMap toWords) = .ok groups := by
  induction groups with
  | nil =>
      rw [List.flatMap_nil, ofWords]
  | cons group rest ih =>
      have hrest : ∀ g ∈ rest, g.Grouped := fun g hg => h g (List.mem_cons_of_mem group hg)
      have hhead : ∀ word ∈ (rest.flatMap toWords).head?, word.role ≠ .parameter := by
        intro word hword
        cases rest with
        | nil => cases hword
        | cons next others =>
            cases hword
            rw [(hrest next List.mem_cons_self).head]
            decide
      rw [List.flatMap_cons, ofWords_toWords_append (h group List.mem_cons_self) hhead, ih hrest]
      rfl

theorem of_ofWords {words : List Word} {groups : List WordGroup} (h : ofWords words = .ok groups) :
    words = groups.flatMap toWords ∧ ∀ group ∈ groups, group.Grouped := by
  fun_induction ofWords words generalizing groups with
  | case1 =>
      cases h
      exact ⟨rfl, by simp⟩
  | case2 word words hrole ih =>
      obtain ⟨rest, hrest, hgroups⟩ := bind_eq_ok_iff.mp h
      cases hgroups
      rcases ih hrest with ⟨hwords, hgrouped⟩
      constructor
      · rw [List.flatMap_cons, ← hwords]
        show word :: words = word :: (words.takeWhile isParameter ++ _)
        rw [List.takeWhile_append_dropWhile]
      · intro group hmem
        rcases List.mem_cons.mp hmem with rfl | hmem
        · exact ⟨hrole, fun w hw => isParameter_iff.mp (List.mem_takeWhile_imp hw)⟩
        · exact hgrouped group hmem
  | case3 word words hrole => cases h
  | case4 word words hrole => cases h

theorem ofWords_eq_ok_iff {words : List Word} {groups : List WordGroup} :
    ofWords words = .ok groups ↔
      words = groups.flatMap toWords ∧ ∀ group ∈ groups, group.Grouped := by
  constructor
  · exact of_ofWords
  · rintro ⟨rfl, hgrouped⟩
    exact ofWords_flatMap hgrouped

end WordGroup
end Extrusion
