import Mathlib
import Extrusion.Proofs.Command.Strictness
import Extrusion.Proofs.Program.Line
import Extrusion.Proofs.Program.Stream

/-!
# Lenient and strict texts

A text that the lenient reading takes is refused by the strict one at its first
code of no form, in the line that has it.  Where the lenient reading fails the
strict one fails too: at such a code if there is one before the failure, and
else in the same way.
-/

namespace Extrusion
namespace Program

/-!
## One line
-/

def lineWords (line : String) : List Word :=
  Word.scan (String.ofList (body line))

/-- The lenient reading of a line ends with a fault, behind the commands of
earlier groups.  There are none where the line is too long or its words cannot
be grouped. -/
inductive LineFails (line : String) : LineFault → List (Command Float) → Prop where
  | tooLong : lineLimit < (body line).length →
      LineFails line (.lineTooLong (body line).length lineLimit) []
  | words {fault : LineFault} {before : List (Command Float)} :
      (body line).length ≤ lineLimit → Command.FailsBehind (lineWords line) fault before →
        LineFails line fault before

section

variable {skipUnknown : Bool} {lineNumber : Nat} {line : String} {fault : LineFault}
  {commands before : List (Command Float)} {instructions : List (Instruction Float)}

theorem readLine_of_tooLong (h : lineLimit < (body line).length) :
    readLine skipUnknown lineNumber line =
      .error (.ofLine lineNumber (body line) (.lineTooLong (body line).length lineLimit)) := by
  have hlong : lineLimit < (Text.dropEnd isLineEnd line.toList).length := h
  simp only [readLine, if_pos hlong]
  rfl

theorem readLine_of_ofWords (hfits : (body line).length ≤ lineLimit)
    (h : Command.ofWords skipUnknown (lineWords line) = .ok commands) :
    readLine skipUnknown lineNumber line =
      .ok (commands.map fun command => ⟨lineNumber, command⟩) := by
  unfold lineWords at h
  rw [readLine_of_fits hfits, h]

theorem readLine_of_ofWords_error (hfits : (body line).length ≤ lineLimit)
    (h : Command.ofWords skipUnknown (lineWords line) = .error fault) :
    readLine skipUnknown lineNumber line = .error (.ofLine lineNumber (body line) fault) := by
  unfold lineWords at h
  rw [readLine_of_fits hfits, h]

theorem ofWords_of_readLine (h : readLine skipUnknown lineNumber line = .ok instructions) :
    ∃ commands, Command.ofWords skipUnknown (lineWords line) = .ok commands ∧
      instructions = commands.map fun command => ⟨lineNumber, command⟩ := by
  have hfits := length_body_of_readLine h
  cases hcommands : Command.ofWords skipUnknown (lineWords line) with
  | error fault =>
      rw [readLine_of_ofWords_error hfits hcommands] at h
      cases h
  | ok commands =>
      rw [readLine_of_ofWords hfits hcommands] at h
      cases h
      exact ⟨commands, rfl, rfl⟩

theorem firstUnknown_map (lineNumber : Nat) (commands : List (Command Float)) :
    firstUnknown? (commands.map fun command => ⟨lineNumber, command⟩) =
      (Command.firstCode? commands).map fun code => ⟨code, lineNumber⟩ := by
  unfold firstUnknown? Command.firstCode?
  rw [List.findSome?_map, List.map_findSome?]
  rfl

theorem lineFails_of_readLine {error : SyntaxError}
    (h : readLine true lineNumber line = .error error) :
    ∃ fault before, LineFails line fault before ∧
      error = .ofLine lineNumber (body line) fault := by
  rcases Nat.lt_or_ge lineLimit (body line).length with hlong | hfits
  · rw [readLine_of_tooLong hlong] at h
    cases h
    exact ⟨_, [], .tooLong hlong, rfl⟩
  · cases hwords : Command.ofWords true (lineWords line) with
    | ok commands =>
        rw [readLine_of_ofWords hfits hwords] at h
        cases h
    | error fault =>
        rw [readLine_of_ofWords_error hfits hwords] at h
        cases h
        obtain ⟨before, hfails⟩ := Command.failsBehind_of_ofWords hwords
        exact ⟨fault, before, .words hfits hfails, rfl⟩

theorem LineFails.readLine_true (h : LineFails line fault before) :
    readLine true lineNumber line = .error (.ofLine lineNumber (body line) fault) := by
  cases h with
  | tooLong hlong => exact readLine_of_tooLong hlong
  | words hfits hfails => exact readLine_of_ofWords_error hfits hfails.ofWords_true

theorem LineFails.readLine_false (h : LineFails line fault before) :
    readLine false lineNumber line =
      .error (.ofLine lineNumber (body line) (Command.faultBehind before fault)) := by
  cases h with
  | tooLong hlong => exact readLine_of_tooLong hlong
  | words hfits hfails => exact readLine_of_ofWords_error hfits hfails.ofWords_false

theorem readLine_of_known (h : readLine true lineNumber line = .ok instructions)
    (hknown : firstUnknown? instructions = none) :
    readLine false lineNumber line = .ok instructions := by
  obtain ⟨commands, hwords, rfl⟩ := ofWords_of_readLine h
  rw [firstUnknown_map, Option.map_eq_none_iff] at hknown
  exact readLine_of_ofWords (length_body_of_readLine h) (Command.ofWords_of_known hwords hknown)

theorem readLine_of_unknown (h : readLine true lineNumber line = .ok instructions)
    {unknown : UnknownCommand} (hunknown : firstUnknown? instructions = some unknown) :
    unknown.lineNumber = lineNumber ∧
      readLine false lineNumber line =
        .error (.ofLine lineNumber (body line) (.unsupportedCommand unknown.code)) := by
  obtain ⟨commands, hwords, rfl⟩ := ofWords_of_readLine h
  rw [firstUnknown_map, Option.map_eq_some_iff] at hunknown
  obtain ⟨code, hcode, rfl⟩ := hunknown
  refine ⟨rfl, ?_⟩
  exact readLine_of_ofWords_error (length_body_of_readLine h)
    (Command.ofWords_of_unknown hwords hcode)

end

/-!
## Many lines
-/

/-- The lenient reading of some lines ends with an error, behind the
instructions of the lines before and of earlier groups of the failing line. -/
inductive FailsBehind (lineNumber : Nat) (lines : List String) :
    SyntaxError → List (Instruction Float) → Prop where
  | line {before : List (Instruction Float)} {fault : LineFault}
      {commands : List (Command Float)} (earlier : List String) (line : String)
      (later : List String) :
      lines = earlier ++ line :: later → readLines true lineNumber earlier = .ok before →
        LineFails line fault commands →
          FailsBehind lineNumber lines (.ofLine (lineNumber + earlier.length) (body line) fault)
            (before ++ commands.map fun command => ⟨lineNumber + earlier.length, command⟩)

def Refuses (lineNumber : Nat) (lines : List String) (unknown : UnknownCommand) : Prop :=
  ∃ index line, lines[index]? = some line ∧ unknown.lineNumber = lineNumber + index ∧
    readLines false lineNumber lines =
      .error (.ofLine unknown.lineNumber (body line) (.unsupportedCommand unknown.code))

section

variable {skipUnknown : Bool} {lineNumber : Nat} {line : String} {lines : List String}
  {here instructions : List (Instruction Float)} {error : SyntaxError} {unknown : UnknownCommand}

theorem readLines_of_failing {earlier later : List String}
    (hearlier : readLines skipUnknown lineNumber earlier = .ok instructions)
    (hline : readLine skipUnknown (lineNumber + earlier.length) line = .error error) :
    readLines skipUnknown lineNumber (earlier ++ line :: later) = .error error := by
  induction earlier generalizing lineNumber instructions with
  | nil => exact readLines_cons_of_error hline
  | cons first earlier ih =>
      obtain ⟨here, rest, hhere, hrest, rfl⟩ := readLines_cons_eq_ok_iff.mp hearlier
      rw [List.length_cons, Nat.add_comm earlier.length, ← Nat.add_assoc] at hline
      rw [List.cons_append, readLines_cons_of_ok hhere, ih hrest hline]
      rfl

theorem exists_failing_of_readLines
    (h : readLines skipUnknown lineNumber lines = .error error) :
    ∃ earlier line later before, lines = earlier ++ line :: later ∧
      readLines skipUnknown lineNumber earlier = .ok before ∧
        readLine skipUnknown (lineNumber + earlier.length) line = .error error := by
  induction lines generalizing lineNumber with
  | nil => cases h
  | cons first lines ih =>
      rcases readLines_cons_eq_error_iff.mp h with hfirst | ⟨here, hfirst, hrest⟩
      · exact ⟨[], first, lines, [], rfl, rfl, hfirst⟩
      · obtain ⟨earlier, line, later, before, rfl, hearlier, hline⟩ := ih hrest
        refine ⟨first :: earlier, line, later, here ++ before, rfl, ?_, ?_⟩
        · exact readLines_cons_eq_ok_iff.mpr ⟨here, before, hfirst, hearlier, rfl⟩
        · rw [List.length_cons, Nat.add_comm earlier.length, ← Nat.add_assoc]
          exact hline

theorem readLines_of_known (h : readLines true lineNumber lines = .ok instructions)
    (hknown : firstUnknown? instructions = none) :
    readLines false lineNumber lines = .ok instructions := by
  induction lines generalizing lineNumber instructions with
  | nil =>
      cases h
      rfl
  | cons line lines ih =>
      obtain ⟨here, later, hhere, hlater, rfl⟩ := readLines_cons_eq_ok_iff.mp h
      rw [firstUnknown_append, Option.or_eq_none_iff] at hknown
      rw [readLines_cons_of_ok (readLine_of_known hhere hknown.1), ih hlater hknown.2]
      rfl

theorem refuses_head (hnumber : unknown.lineNumber = lineNumber)
    (h : readLine false lineNumber line =
      .error (.ofLine lineNumber (body line) (.unsupportedCommand unknown.code))) :
    Refuses lineNumber (line :: lines) unknown := by
  refine ⟨0, line, rfl, hnumber, ?_⟩
  rw [hnumber]
  exact readLines_cons_of_error h

theorem Refuses.cons (h : Refuses (lineNumber + 1) lines unknown)
    (hline : readLine false lineNumber line = .ok here) :
    Refuses lineNumber (line :: lines) unknown := by
  obtain ⟨index, found, hfound, hnumber, hrefused⟩ := h
  refine ⟨index + 1, found, hfound, ?_, ?_⟩
  · rw [hnumber, Nat.add_assoc, Nat.add_comm 1]
  · rw [readLines_cons_of_ok hline, hrefused]
    rfl

theorem refuses_of_unknown (h : readLines true lineNumber lines = .ok instructions)
    (hunknown : firstUnknown? instructions = some unknown) (later : List String) :
    Refuses lineNumber (lines ++ later) unknown := by
  induction lines generalizing lineNumber instructions with
  | nil =>
      cases h
      cases hunknown
  | cons line lines ih =>
      obtain ⟨here, rest, hhere, hrest, rfl⟩ := readLines_cons_eq_ok_iff.mp h
      rw [firstUnknown_append] at hunknown
      -- Either this line has the code, or the strict reading takes it too and goes on.
      cases hfirst : firstUnknown? here with
      | some found =>
          rw [hfirst] at hunknown
          cases hunknown
          rcases readLine_of_unknown hhere hfirst with ⟨hnumber, hrefused⟩
          exact refuses_head hnumber hrefused
      | none =>
          rw [hfirst, Option.none_or] at hunknown
          exact (ih hrest hunknown).cons (readLine_of_known hhere hfirst)

theorem refuses_of_readLines (h : readLines true lineNumber lines = .ok instructions)
    (hunknown : firstUnknown? instructions = some unknown) :
    Refuses lineNumber lines unknown := by
  have hrefused := refuses_of_unknown h hunknown []
  rw [List.append_nil] at hrefused
  exact hrefused

theorem failsBehind_of_readLines (h : readLines true lineNumber lines = .error error) :
    ∃ before, FailsBehind lineNumber lines error before := by
  obtain ⟨earlier, line, later, before, hlines, hearlier, hline⟩ := exists_failing_of_readLines h
  obtain ⟨fault, commands, hfails, rfl⟩ := lineFails_of_readLine hline
  exact ⟨_, .line earlier line later hlines hearlier hfails⟩

theorem FailsBehind.readLines_true (h : FailsBehind lineNumber lines error instructions) :
    readLines true lineNumber lines = .error error := by
  cases h with
  | line earlier line later hlines hearlier hfails =>
      subst lines
      exact readLines_of_failing hearlier hfails.readLine_true

theorem FailsBehind.readLines_of_known (h : FailsBehind lineNumber lines error instructions)
    (hknown : firstUnknown? instructions = none) :
    readLines false lineNumber lines = .error error := by
  cases h with
  | line earlier line later hlines hearlier hfails =>
      subst lines
      rw [firstUnknown_append, Option.or_eq_none_iff, firstUnknown_map,
        Option.map_eq_none_iff] at hknown
      have hline : readLine false (lineNumber + earlier.length) line = .error _ :=
        hfails.readLine_false
      rw [Command.faultBehind, hknown.2] at hline
      exact readLines_of_failing (Program.readLines_of_known hearlier hknown.1) hline

theorem FailsBehind.refuses (h : FailsBehind lineNumber lines error instructions)
    (hunknown : firstUnknown? instructions = some unknown) :
    Refuses lineNumber lines unknown := by
  cases h with
  | @line before fault commands earlier line later hlines hearlier hfails =>
      subst lines
      rw [firstUnknown_append] at hunknown
      -- Codes in earlier lines come first; only behind known lines does the failing line count.
      cases hbefore : firstUnknown? before with
      | some found =>
          rw [hbefore] at hunknown
          cases hunknown
          exact refuses_of_unknown hearlier hbefore (line :: later)
      | none =>
          rw [hbefore, Option.none_or, firstUnknown_map, Option.map_eq_some_iff] at hunknown
          obtain ⟨code, hcode, rfl⟩ := hunknown
          have hline : readLine false (lineNumber + earlier.length) line = .error _ :=
            hfails.readLine_false
          rw [Command.faultBehind, hcode] at hline
          refine ⟨earlier.length, line, by simp, rfl, ?_⟩
          exact readLines_of_failing (Program.readLines_of_known hearlier hbefore) hline

theorem Refuses.ne_ok (h : Refuses lineNumber lines unknown) :
    readLines false lineNumber lines ≠ .ok instructions := by
  obtain ⟨_, _, _, _, hrefused⟩ := h
  rw [hrefused]
  intro hok
  cases hok

theorem known_of_readLines (h : readLines false lineNumber lines = .ok instructions) :
    readLines true lineNumber lines = .ok instructions ∧ firstUnknown? instructions = none := by
  cases hlenient : readLines true lineNumber lines with
  | error error =>
      obtain ⟨before, hfails⟩ := failsBehind_of_readLines hlenient
      cases hunknown : firstUnknown? before with
      | none =>
          rw [hfails.readLines_of_known hunknown] at h
          cases h
      | some unknown => exact absurd h (hfails.refuses hunknown).ne_ok
  | ok instructions' =>
      cases hunknown : firstUnknown? instructions' with
      | none =>
          rw [readLines_of_known hlenient hunknown] at h
          cases h
          exact ⟨rfl, hunknown⟩
      | some unknown => exact absurd h (refuses_of_readLines hlenient hunknown).ne_ok

end

/-!
## Texts
-/

structure Strictness (text : String) : Prop where
  accepts : ∀ instructions, readText false text = .ok instructions ↔
    readText true text = .ok instructions ∧
      ∀ instruction ∈ instructions, ∀ code, instruction.command ≠ .unsupported code
  refuses : ∀ instructions unknown, readText true text = .ok instructions →
    firstUnknown? instructions = some unknown → Refuses 1 (Text.lines text) unknown
  fails : ∀ error, readText true text = .error error ↔
    ∃ before, FailsBehind 1 (Text.lines text) error before
  blames : ∀ error before, FailsBehind 1 (Text.lines text) error before →
    match firstUnknown? before with
    | some unknown => Refuses 1 (Text.lines text) unknown
    | none => readText false text = .error error

structure StrictnessRule : Prop where
  words : ∀ words, Command.Strictness words
  texts : ∀ text, Strictness text

theorem strictness (text : String) : Strictness text where
  accepts := by
    intro instructions
    simp only [← Command.unknownCode_eq_none_iff, ← Instruction.unknown_eq_none_iff,
      ← firstUnknown_eq_none_iff]
    constructor
    · exact known_of_readLines
    · intro h
      exact readLines_of_known h.1 h.2
  refuses := by
    intro instructions unknown h hunknown
    exact refuses_of_readLines h hunknown
  fails := by
    intro error
    constructor
    · exact failsBehind_of_readLines
    · rintro ⟨before, h⟩
      exact h.readLines_true
  blames := by
    intro error before h
    cases hunknown : firstUnknown? before with
    | some unknown => exact h.refuses hunknown
    | none => exact h.readLines_of_known hunknown

theorem strictnessRule : StrictnessRule where
  words := Command.strictness
  texts := strictness

end Program
end Extrusion
