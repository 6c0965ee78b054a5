import Mathlib
import Extrusion.Proofs.Command.Reader
import Extrusion.Proofs.Machine.Unknown

/-!
# Lenient and strict commands

The lenient and the strict reading of a group differ where its code has no
form: one keeps the code, the other refuses it.  Whole lists of words are first
put into groups, which both readings do alike, and then read from the left.
-/

namespace Extrusion

/-!
## Groups
-/

def WordGroup.unknownCode? (group : WordGroup) : Option Code :=
  match Form.ofCode? (Code.ofWord group.head) with
  | some _ => none
  | none => some (Code.ofWord group.head)

namespace Command

section

variable {group : WordGroup} {command : Command Float} {code : Code} {fault : LineFault}

theorem ofGroup_of_known (h : group.unknownCode? = none) :
    ofGroup false group = ofGroup true group := by
  unfold WordGroup.unknownCode? at h
  cases hform : Form.ofCode? (Code.ofWord group.head) with
  | none =>
      rw [hform] at h
      cases h
  | some form =>
      by_cases hhome : form = .home
      · subst form
        rw [ofGroup_home hform, ofGroup_home hform]
      · rw [ofGroup_form hform hhome, ofGroup_form hform hhome]

theorem ofGroup_of_unknown (h : group.unknownCode? = some code) (skipUnknown : Bool) :
    ofGroup skipUnknown group =
      if skipUnknown then .ok (.unsupported code) else .error (.unsupportedCommand code) := by
  unfold WordGroup.unknownCode? at h
  cases hform : Form.ofCode? (Code.ofWord group.head) with
  | some form =>
      rw [hform] at h
      cases h
  | none =>
      rw [hform] at h
      cases h
      exact ofGroup_unsupported hform

theorem unknownCode_of_ofGroup (h : ofGroup true group = .ok command) :
    command.unknownCode? = group.unknownCode? := by
  cases hform : Form.ofCode? (Code.ofWord group.head) with
  | none =>
      rcases unsupported_of_ofGroup hform h with ⟨_, rfl⟩
      simp only [WordGroup.unknownCode?, hform, unknownCode?]
  | some form =>
      have hholds := (holds_of_ofGroup hform h).formOrCode_eq
      simp only [WordGroup.unknownCode?, hform]
      rw [unknownCode_eq_none_iff]
      intro code hcode
      rw [hcode] at hholds
      cases hholds

theorem unknownCode_of_ofGroup_error (h : ofGroup true group = .error fault) :
    group.unknownCode? = none := by
  cases hcode : group.unknownCode? with
  | none => rfl
  | some code =>
      rw [ofGroup_of_unknown hcode] at h
      cases h

theorem ofGroup_false_of_true (h : ofGroup true group = .ok command) :
    ofGroup false group =
      match command.unknownCode? with
      | some code => .error (.unsupportedCommand code)
      | none => .ok command := by
  rw [unknownCode_of_ofGroup h]
  cases hcode : group.unknownCode? with
  | none => exact (ofGroup_of_known hcode).trans h
  | some code => exact ofGroup_of_unknown hcode false

end

/-!
## Groups of a list of words
-/

def firstCode? (commands : List (Command Float)) : Option Code :=
  commands.findSome? unknownCode?

section

variable {groups : List WordGroup} {commands : List (Command Float)} {code : Code}

theorem firstCode_cons (command : Command Float) (commands : List (Command Float)) :
    firstCode? (command :: commands) = command.unknownCode?.or (firstCode? commands) := by
  unfold firstCode?
  rw [List.findSome?_cons]
  cases command.unknownCode? <;> rfl

theorem firstCode_eq_none_iff :
    firstCode? commands = none ↔ ∀ code, .unsupported code ∉ commands := by
  unfold firstCode?
  simp only [List.findSome?_eq_none_iff, unknownCode_eq_none_iff]
  constructor
  · intro h code hmem
    exact h _ hmem code rfl
  · rintro h command hmem code rfl
    exact h code hmem

theorem ofGroups_of_known (h : groups.mapM (ofGroup true) = .ok commands)
    (hknown : firstCode? commands = none) : groups.mapM (ofGroup false) = .ok commands := by
  rw [mapM_eq_ok_iff] at h ⊢
  induction h with
  | nil => exact .nil
  | cons hhead _ ih =>
      rw [firstCode_cons, Option.or_eq_none_iff] at hknown
      refine .cons ?_ (ih hknown.2)
      rw [ofGroup_false_of_true hhead, hknown.1]

theorem ofGroups_of_unknown (h : groups.mapM (ofGroup true) = .ok commands)
    (hcode : firstCode? commands = some code) (later : List WordGroup) :
    (groups ++ later).mapM (ofGroup false) = .error (.unsupportedCommand code) := by
  rw [mapM_eq_ok_iff] at h
  induction h with
  | nil => cases hcode
  | @cons group command _ _ hhead _ ih =>
      rw [firstCode_cons] at hcode
      rw [List.cons_append, List.mapM_cons, ofGroup_false_of_true hhead]
      cases hunknown : command.unknownCode? with
      | some found =>
          rw [hunknown] at hcode
          cases hcode
          rfl
      | none =>
          rw [hunknown, Option.none_or] at hcode
          simp only [ih hcode]
          rfl

end

/-!
## Lists of words
-/

/-- The lenient reading of some words ends with a fault, behind the commands of
earlier groups.  There are none where the words cannot be grouped. -/
inductive FailsBehind (words : List Word) : LineFault → List (Command Float) → Prop where
  | ungrouped {fault : LineFault} :
      WordGroup.ofWords words = .error fault → FailsBehind words fault []
  | group {fault : LineFault} {before : List (Command Float)} (earlier : List WordGroup)
      (group : WordGroup) (later : List WordGroup) :
      WordGroup.ofWords words = .ok (earlier ++ group :: later) →
        earlier.mapM (ofGroup true) = .ok before →
          ofGroup true group = .error fault → FailsBehind words fault before

def faultBehind (before : List (Command Float)) (fault : LineFault) : LineFault :=
  match firstCode? before with
  | some code => .unsupportedCommand code
  | none => fault

section

variable {skipUnknown : Bool} {words : List Word} {groups : List WordGroup}
  {commands before : List (Command Float)} {fault : LineFault}

theorem ofWords_of_groups (h : WordGroup.ofWords words = .ok groups) :
    ofWords skipUnknown words = groups.mapM (ofGroup skipUnknown) := by
  unfold ofWords
  rw [h]
  rfl

theorem ofWords_of_ungrouped (h : WordGroup.ofWords words = .error fault) :
    ofWords skipUnknown words = .error fault := by
  unfold ofWords
  rw [h]
  rfl

theorem exists_groups_iff :
    ofWords skipUnknown words = .ok commands ↔
      ∃ groups, WordGroup.ofWords words = .ok groups ∧
        groups.mapM (ofGroup skipUnknown) = .ok commands :=
  bind_eq_ok_iff

theorem failsBehind_of_ofWords (h : ofWords true words = .error fault) :
    ∃ before, FailsBehind words fault before := by
  rcases bind_eq_error_iff.mp h with hgroups | ⟨groups, hgroups, hread⟩
  · exact ⟨[], .ungrouped hgroups⟩
  · obtain ⟨earlier, group, later, before, rfl, hearlier, hgroup⟩ := exists_failing_of_mapM hread
    exact ⟨before, .group earlier group later hgroups hearlier hgroup⟩

theorem FailsBehind.ofWords_true (h : FailsBehind words fault before) :
    ofWords true words = .error fault := by
  cases h with
  | ungrouped hgroups => exact ofWords_of_ungrouped hgroups
  | group earlier group later hgroups hearlier hgroup =>
      rw [ofWords_of_groups hgroups]
      exact mapM_of_failing hearlier hgroup

theorem FailsBehind.ofWords_false (h : FailsBehind words fault before) :
    ofWords false words = .error (faultBehind before fault) := by
  cases h with
  | ungrouped hgroups => exact ofWords_of_ungrouped hgroups
  | group earlier group later hgroups hearlier hgroup =>
      rw [ofWords_of_groups hgroups]
      unfold faultBehind
      cases hcode : firstCode? before with
      | some code => exact ofGroups_of_unknown hearlier hcode (group :: later)
      | none =>
          -- The group that fails has a form, so the strict reading fails there alike.
          have hknown := unknownCode_of_ofGroup_error hgroup
          exact mapM_of_failing (ofGroups_of_known hearlier hcode)
            ((ofGroup_of_known hknown).trans hgroup)

theorem ofWords_of_known (h : ofWords true words = .ok commands)
    (hknown : firstCode? commands = none) : ofWords false words = .ok commands := by
  obtain ⟨groups, hgroups, hread⟩ := exists_groups_iff.mp h
  rw [ofWords_of_groups hgroups]
  exact ofGroups_of_known hread hknown

theorem ofWords_of_unknown (h : ofWords true words = .ok commands) {code : Code}
    (hcode : firstCode? commands = some code) :
    ofWords false words = .error (.unsupportedCommand code) := by
  obtain ⟨groups, hgroups, hread⟩ := exists_groups_iff.mp h
  have hrefused := ofGroups_of_unknown hread hcode []
  rw [List.append_nil] at hrefused
  rw [ofWords_of_groups hgroups, hrefused]

end

structure Strictness (words : List Word) : Prop where
  accepts : ∀ commands, ofWords false words = .ok commands ↔
    ofWords true words = .ok commands ∧ ∀ code, .unsupported code ∉ commands
  refuses : ∀ commands code, ofWords true words = .ok commands →
    firstCode? commands = some code → ofWords false words = .error (.unsupportedCommand code)
  fails : ∀ fault, ofWords true words = .error fault ↔ ∃ before, FailsBehind words fault before
  blames : ∀ fault before, FailsBehind words fault before →
    ofWords false words = .error (faultBehind before fault)

theorem strictness (words : List Word) : Strictness words where
  accepts := by
    intro commands
    constructor
    · intro h
      cases hlenient : ofWords true words with
      | error fault =>
          obtain ⟨before, hfails⟩ := failsBehind_of_ofWords hlenient
          rw [hfails.ofWords_false] at h
          cases h
      | ok commands' =>
          cases hcode : firstCode? commands' with
          | some code =>
              rw [ofWords_of_unknown hlenient hcode] at h
              cases h
          | none =>
              rw [ofWords_of_known hlenient hcode] at h
              cases h
              exact ⟨rfl, firstCode_eq_none_iff.mp hcode⟩
    · intro h
      exact ofWords_of_known h.1 (firstCode_eq_none_iff.mpr h.2)
  refuses := by
    intro commands code h hcode
    exact ofWords_of_unknown h hcode
  fails := by
    intro fault
    constructor
    · exact failsBehind_of_ofWords
    · rintro ⟨before, h⟩
      exact h.ofWords_true
  blames := by
    intro fault before h
    exact h.ofWords_false

end Command
end Extrusion
