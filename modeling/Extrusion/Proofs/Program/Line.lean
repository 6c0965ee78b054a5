import Mathlib
import Extrusion.Program
import Extrusion.Proofs.Command.Printer

/-!
# Reading a line

Which lines the strict reading takes and what they become, and that whatever
is read from a line, strictly or not, is read again from its own text.
-/

namespace Extrusion
namespace Program

/-!
## Pairs
-/

section

variable {α β : Type} {R : α → β → Prop} {as : List α} {bs : List β}

theorem exists_right_of_forall₂ (h : List.Forall₂ R as bs) {a : α} (ha : a ∈ as) :
    ∃ b ∈ bs, R a b := by
  induction h with
  | nil => cases ha
  | cons hab _ ih =>
      rcases List.mem_cons.mp ha with rfl | hmem
      · exact ⟨_, List.mem_cons_self, hab⟩
      · obtain ⟨b, hb, hr⟩ := ih hmem
        exact ⟨b, List.mem_cons_of_mem _ hb, hr⟩

theorem exists_left_of_forall₂ (h : List.Forall₂ R as bs) {b : β} (hb : b ∈ bs) :
    ∃ a ∈ as, R a b :=
  exists_right_of_forall₂ h.flip hb

end

/-!
## Groups of a line
-/

def body (line : String) : List Char :=
  Text.dropEnd isLineEnd line.toList

/-- The words of a line are those of some groups, one behind the other. -/
def GroupsOf (line : String) (groups : List WordGroup) : Prop :=
  Word.scan (String.ofList (body line)) = groups.flatMap WordGroup.toWords ∧
    ∀ group ∈ groups, group.Grouped

section

variable {skipUnknown : Bool} {lineNumber : Nat} {line : String}
  {instructions : List (Instruction Float)}

theorem readLine_of_fits (h : (body line).length ≤ lineLimit) :
    readLine skipUnknown lineNumber line =
      match Command.ofWords skipUnknown (Word.scan (String.ofList (body line))) with
      | .ok commands => .ok (commands.map fun command => ⟨lineNumber, command⟩)
      | .error cause => .error (.ofLine lineNumber (body line) cause) := by
  have hnot : ¬lineLimit < (Text.dropEnd isLineEnd line.toList).length := Nat.not_lt_of_le h
  simp only [readLine, if_neg hnot]
  rfl

theorem length_body_of_readLine (h : readLine skipUnknown lineNumber line = .ok instructions) :
    (body line).length ≤ lineLimit := by
  apply Nat.le_of_not_lt
  intro hlong
  have hlong' : lineLimit < (Text.dropEnd isLineEnd line.toList).length := hlong
  simp only [readLine, if_pos hlong'] at h
  cases h

theorem readLine_eq_ok_iff :
    readLine skipUnknown lineNumber line = .ok instructions ↔
      (body line).length ≤ lineLimit ∧
        ∃ groups commands, GroupsOf line groups ∧
          List.Forall₂ (fun group command => Command.ofGroup skipUnknown group = .ok command)
              groups commands ∧
            instructions = commands.map fun command => ⟨lineNumber, command⟩ := by
  constructor
  · intro h
    have hfits := length_body_of_readLine h
    rw [readLine_of_fits hfits] at h
    cases hcommands : Command.ofWords skipUnknown (Word.scan (String.ofList (body line))) with
    | error cause =>
        rw [hcommands] at h
        cases h
    | ok commands =>
        rw [hcommands] at h
        cases h
        obtain ⟨groups, hwords, hgrouped, hread⟩ := Command.ofWords_eq_ok_iff.mp hcommands
        exact ⟨hfits, groups, commands, ⟨hwords, hgrouped⟩, hread, rfl⟩
  · rintro ⟨hfits, groups, commands, ⟨hwords, hgrouped⟩, hread, rfl⟩
    have hcommands := Command.ofWords_eq_ok_iff.mpr ⟨groups, hwords, hgrouped, hread⟩
    rw [readLine_of_fits hfits, hcommands]

theorem legible_of_groupsOf (hfits : (body line).length ≤ lineLimit) {groups : List WordGroup}
    (hgroups : GroupsOf line groups) :
    ∀ group ∈ groups, ∀ word ∈ group.toWords, Scan.Legible word := by
  intro group hgroup word hword
  have hlength : (String.ofList (body line)).toList.length ≤ 300 := by
    rw [String.toList_ofList]
    exact hfits.trans (by decide)
  apply Scan.legible_scan hlength
  rw [hgroups.1]
  exact List.mem_flatMap.mpr ⟨group, hgroup, hword⟩

end

/-!
## Strict reading
-/

/-- What is read from a line is read from its text. -/
theorem ofWords_text_of_readLine {skipUnknown : Bool} {lineNumber : Nat} {line : String}
    {instructions : List (Instruction Float)}
    (h : readLine skipUnknown lineNumber line = .ok instructions) :
    ∀ instruction ∈ instructions,
      Command.ofWords true (Word.scan instruction.command.text) = .ok [instruction.command] := by
  intro instruction hmem
  obtain ⟨hfits, groups, commands, hgroups, hread, rfl⟩ := readLine_eq_ok_iff.mp h
  obtain ⟨command, hcommand, rfl⟩ := List.mem_map.mp hmem
  obtain ⟨group, hgroup, hofGroup⟩ := exists_left_of_forall₂ hread hcommand
  exact (Command.readsBack_of_ofGroup (hgroups.2 group hgroup)
    (legible_of_groupsOf hfits hgroups group hgroup) hofGroup).ofWords_text

def mixedInstructions : List (Instruction Float) :=
  [⟨3, .linear ⟨false, some 0.1, none, none, some (-7), none, none, none, none⟩⟩,
    ⟨3, .unsupported ⟨'m', "117."⟩⟩, ⟨3, .home ⟨true, true, false⟩⟩]

theorem ofWords_text_of_mixed_line :
    readLine true 3 "g01 x.1e-07 m117. (up) G28yx" = .ok mixedInstructions ∧
      ∀ instruction ∈ mixedInstructions,
        Command.ofWords true (Word.scan instruction.command.text) =
          .ok [instruction.command] := by
  have hline : readLine true 3 "g01 x.1e-07 m117. (up) G28yx" = .ok mixedInstructions := by
    decide +kernel
  exact ⟨hline, ofWords_text_of_readLine hline⟩

end Program
end Extrusion
