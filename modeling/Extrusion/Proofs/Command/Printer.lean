import Mathlib
import Extrusion.Command.Printer
import Extrusion.Proofs.Command.Reader

/-!
# Reading printed commands

A command that was read prints as one group of words that a scan finds again.
The words of its numbers carry the digits of finite doubles, and each letter
stands there once, so that the group reads as the command it was printed from.
-/

namespace Extrusion

open Numeric

namespace Command

/-!
## Printed words
-/

theorem facts_of_mem_parameterLetters {letter : Char} (h : letter ∈ parameterLetters) :
    letter.isLower = true ∧ commandLetters.contains letter = false := by
  have hall : (parameterLetters.all fun letter =>
      letter.isLower && !commandLetters.contains letter) = true := by decide
  have hletter := List.all_eq_true.mp hall letter h
  rw [Bool.and_eq_true, Bool.not_eq_true'] at hletter
  exact hletter

theorem role_of_mem_parameterLetters {word : Word} (h : word.letter ∈ parameterLetters) :
    word.role = .parameter := by
  unfold Word.role
  rw [(facts_of_mem_parameterLetters h).2, List.contains_iff_mem.mpr h]
  rfl

theorem mem_parameterLetters_of_role {word : Word} (h : word.role = .parameter) :
    word.letter ∈ parameterLetters := by
  unfold Word.role at h
  split at h
  · cases h
  · split at h
    · next hmem => exact List.contains_iff_mem.mp hmem
    · cases h

theorem scanned_numberWord {letter : Char} (hletter : letter ∈ parameterLetters) {x : Float}
    (hx : Double.IsFinite x) :
    Scan.Scanned (numberWord letter x) ∧
      ∃ c ∈ (numberWord letter x).literalText.toList, c.isDigit = true := by
  obtain ⟨l, hchars, hdigits, _⟩ := Scan.exists_literal_plain hx
  have hlist : (numberWord letter x).literalText.toList = l.chars := by
    rw [hchars]
    exact String.toList_ofList
  constructor
  · constructor
    · exact (facts_of_mem_parameterLetters hletter).1
    · exact ⟨l, hlist⟩
    · intro hempty
      have hnil : l.chars = [] := by
        rw [← hlist]
        exact congrArg String.toList (Option.some.inj hempty)
      obtain ⟨c, hc, _⟩ := l.digits_ne_nil_iff.mp hdigits
      rw [hnil] at hc
      cases hc
  · rw [hlist]
    exact l.digits_ne_nil_iff.mp hdigits

def printed (letters : List Char) (value : Char → Option Float) : List Word :=
  letters.filterMap fun letter => (value letter).map (numberWord letter)

section

variable {letters : List Char} {value : Char → Option Float}

theorem mem_printed {word : Word} :
    word ∈ printed letters value ↔
      ∃ letter ∈ letters, ∃ x, value letter = some x ∧ numberWord letter x = word := by
  simp [printed]

theorem named_printed {letter : Char} (hmem : letter ∈ letters)
    (hvalue : (value letter).isSome = true) : Named (printed letters value) letter := by
  obtain ⟨x, hx⟩ := Option.isSome_iff_exists.mp hvalue
  exact ⟨numberWord letter x, mem_printed.mpr ⟨letter, hmem, x, hx, rfl⟩, rfl⟩

theorem lastNumber_of_not_mem {letter : Char} (h : letter ∉ letters) :
    lastNumber? (printed letters value) letter = none := by
  apply Option.eq_none_iff_forall_ne_some.mpr
  intro x hx
  obtain ⟨word, hword, hletter, _⟩ := exists_of_lastNumber hx
  obtain ⟨printedLetter, hmem, y, _, rfl⟩ := mem_printed.mp hword
  cases hletter
  exact h hmem

theorem lastNumber_printed (hnodup : letters.Nodup)
    (hfinite : ∀ letter x, value letter = some x → Double.IsFinite x) {letter : Char}
    (hmem : letter ∈ letters) : lastNumber? (printed letters value) letter = value letter := by
  induction letters with
  | nil => cases hmem
  | cons first rest ih =>
      rcases List.nodup_cons.mp hnodup with ⟨hfirst, hrest⟩
      cases hvalue : value first with
      | none =>
          have hprinted : printed (first :: rest) value = printed rest value := by
            simp [printed, hvalue]
          rw [hprinted]
          rcases List.mem_cons.mp hmem with rfl | hmem
          · rw [lastNumber_of_not_mem hfirst, hvalue]
          · exact ih hrest hmem
      | some x =>
          have hprinted : printed (first :: rest) value =
              numberWord first x :: printed rest value := by
            simp [printed, hvalue]
          have hread : readFloat? (numberWord first x).literalText = some x :=
            Scan.readFloat_plain (hfinite first x hvalue)
          rw [hprinted, lastNumber_cons]
          rcases List.mem_cons.mp hmem with rfl | hmem
          · rw [lastNumber_of_not_mem hfirst, Option.none_or, hread, hvalue]
            exact if_pos rfl
          · have hne : (numberWord first x).letter ≠ letter := by
              rintro rfl
              exact hfirst hmem
            rw [ih hrest hmem, if_neg hne, Option.or_none]

end

/-!
## Reading back
-/

/-- The printed words make one group that a scan can give and that reads as the
command. -/
structure ReadsBack (command : Command Float) : Prop where
  scanned : ∀ word ∈ command.toWords, Scan.Scanned word
  grouped : WordGroup.Grouped ⟨command.code.toWord, command.parameterWords⟩
  reads : ofGroup true ⟨command.code.toWord, command.parameterWords⟩ = .ok command

theorem ReadsBack.ofWords_text {command : Command Float} (h : command.ReadsBack) :
    ofWords true (Word.scan command.text) = .ok [command] := by
  unfold text
  rw [Scan.scan_intercalate h.scanned, ofWords_eq_ok_iff]
  refine ⟨[⟨command.code.toWord, command.parameterWords⟩], ?_, ?_, ?_⟩
  · exact (List.append_nil _).symm
  · intro group hmem
    rw [List.mem_singleton.mp hmem]
    exact h.grouped
  · exact .cons h.reads .nil

/-!
## Commands of a form
-/

theorem toWord_code (form : Form) :
    form.code.toWord = ⟨form.key.1, some (String.ofList (Nat.toDigits 10 form.key.2))⟩ := by
  cases form <;> rfl

theorem scanned_code (form : Form) : Scan.Scanned form.code.toWord := by
  rw [toWord_code]
  apply Scan.scanned_digits
  · cases form <;> rfl
  · exact List.ne_nil_of_length_pos Nat.length_toDigits_pos
  · intro c hc
    exact Nat.isDigit_of_mem_toDigits (by decide) (by decide) hc

theorem role_code (form : Form) : form.code.toWord.role = .command := by
  cases form <;> rfl

theorem ofWord_code (form : Form) : Code.ofWord form.code.toWord = form.code := by
  cases form <;> rfl

theorem code_of_form {form : Form} {command : Command Float} (h : command.formOrCode = .inl form) :
    command.code = form.code := by
  unfold code
  rw [h]

/-- A command of a form whose numbers can be printed, and are all that the form
cannot do without. -/
structure Printable (form : Form) (value : Char → Option Float) (command : Command Float) :
    Prop where
  formOrCode_eq : command.formOrCode = .inl form
  fields : command.fields = form.parameters.map fun letter => (letter, value letter)
  letter : ∀ letter x, value letter = some x → letter ∈ parameterLetters
  isFinite : ∀ letter x, value letter = some x → Double.IsFinite x
  complete : form.Complete fun letter => (value letter).isSome = true

section

variable {form : Form} {value : Char → Option Float} {command : Command Float}

theorem Printable.parameterWords (hform : form ≠ .home) (h : command.Printable form value) :
    command.parameterWords = printed form.parameters value := by
  have hwords : command.parameterWords =
      command.fields.filterMap fun field => field.2.map (numberWord field.1) := by
    cases command with
    | home axes =>
        cases h.formOrCode_eq
        exact absurd rfl hform
    | _ => rfl
  rw [hwords, h.fields, List.filterMap_map]
  rfl

theorem Printable.numbered (h : command.Printable form value) :
    Numbered (printed form.parameters value) := by
  intro word hmem
  obtain ⟨letter, _, x, hx, rfl⟩ := mem_printed.mp hmem
  exact Option.isSome_iff_exists.mpr ⟨x, Scan.readFloat_plain (h.isFinite letter x hx)⟩

theorem Printable.reads (hform : form ≠ .home) (h : command.Printable form value) :
    ofGroup true ⟨form.code.toWord, printed form.parameters value⟩ = .ok command := by
  have hofCode : Form.ofCode? (Code.ofWord form.code.toWord) = some form := by
    rw [ofWord_code]
    exact form.ofCode_code
  have hallowed : ∀ word ∈ printed form.parameters value, word.letter ∈ form.parameters := by
    intro word hmem
    obtain ⟨letter, hletter, x, _, rfl⟩ := mem_printed.mp hmem
    exact hletter
  obtain ⟨p, hread⟩ : ∃ p, Parameters.read (Code.ofWord form.code.toWord) form.parameters
      (printed form.parameters value) = .ok p :=
    Parameters.exists_read.mpr ⟨hallowed, h.numbered⟩
  have hgroup : ofGroup true ⟨form.code.toWord, printed form.parameters value⟩ =
      Parameters.read (Code.ofWord form.code.toWord) form.parameters
        (printed form.parameters value) >>= ofParameters form :=
    ofGroup_form hofCode hform
  have hcommand : ofParameters form p = .ok command := by
    apply ofParameters_of_fields hform h.formOrCode_eq
    · rw [h.fields]
      apply List.map_congr_left
      intro letter hletter
      rw [Parameters.get_of_read hread, lastNumber_printed form.nodup_parameters h.isFinite hletter]
    · intro hparameters
      obtain ⟨letter, hletter, hvalue⟩ := h.complete.exists_given hform hparameters
      rw [Parameters.isEmpty_of_read hread, ne_nil_iff_named hallowed]
      exact ⟨letter, hletter, named_printed hletter hvalue⟩
  rw [hgroup]
  exact bind_eq_ok_iff.mpr ⟨p, hread, hcommand⟩

theorem Printable.readsBack (hform : form ≠ .home) (h : command.Printable form value) :
    command.ReadsBack := by
  have hcode := code_of_form h.formOrCode_eq
  have hwords := h.parameterWords hform
  constructor
  · intro word hmem
    unfold toWords at hmem
    rw [hcode, hwords] at hmem
    rcases List.mem_cons.mp hmem with rfl | hmem
    · exact scanned_code form
    · obtain ⟨letter, _, x, hx, rfl⟩ := mem_printed.mp hmem
      exact (scanned_numberWord (h.letter letter x hx) (h.isFinite letter x hx)).1
  · constructor
    · rw [hcode]
      exact role_code form
    · intro word hmem
      rw [hwords] at hmem
      obtain ⟨letter, _, x, hx, rfl⟩ := mem_printed.mp hmem
      exact role_of_mem_parameterLetters (h.letter letter x hx)
  · rw [hcode, hwords]
    exact h.reads hform

end

/-!
## Homing
-/

theorem mem_axisWords {axes : HomeAxes} {word : Word} (h : word ∈ axisWords axes) :
    word.letter ∈ Form.home.parameters ∧ word.literal = none := by
  obtain ⟨⟨letter, named⟩, hmem, hword⟩ := List.mem_filterMap.mp h
  have hletter : letter ∈ [('x', axes.x), ('y', axes.y), ('z', axes.z)].map Prod.fst :=
    List.mem_map_of_mem hmem
  cases named with
  | false => cases hword
  | true =>
      cases hword
      exact ⟨hletter, rfl⟩

theorem readHome_axisWords (code : Code) (axes : HomeAxes) :
    readHome code (axisWords axes) = .ok (.home axes : Command Float) := by
  rw [readHome_eq_ok_iff]
  constructor
  · intro word hmem
    exact (mem_axisWords hmem).1
  · rcases axes with ⟨_ | _, _ | _, _ | _⟩ <;> rfl

theorem readsBack_home (axes : HomeAxes) : ReadsBack (.home axes) := by
  have hletters : ∀ word ∈ axisWords axes, word.letter ∈ parameterLetters := by
    intro word hmem
    have hsubset : Form.home.parameters ⊆ parameterLetters := by decide
    exact hsubset (mem_axisWords hmem).1
  constructor
  · intro word hmem
    rcases List.mem_cons.mp hmem with rfl | hmem
    · exact scanned_code .home
    · rcases mem_axisWords hmem with ⟨_, hliteral⟩
      constructor
      · exact (facts_of_mem_parameterLetters (hletters word hmem)).1
      · refine ⟨⟨none, [], none, by simp, by simp⟩, ?_⟩
        unfold Word.literalText
        rw [hliteral]
        rfl
      · rw [hliteral]
        simp
  · constructor
    · exact role_code .home
    · intro word hmem
      exact role_of_mem_parameterLetters (hletters word hmem)
  · have hofCode : Form.ofCode? (Code.ofWord Form.home.code.toWord) = some .home := by
      rw [ofWord_code]
      exact Form.home.ofCode_code
    have hgroup : ofGroup true ⟨Form.home.code.toWord, axisWords axes⟩ =
        readHome (Code.ofWord Form.home.code.toWord) (axisWords axes) := ofGroup_home hofCode
    show ofGroup true ⟨Form.home.code.toWord, axisWords axes⟩ = _
    rw [hgroup]
    exact readHome_axisWords _ axes

/-!
## Commands of a line
-/

section

variable {form : Form} {group : WordGroup} {command : Command Float} {skipUnknown : Bool}

theorem printable_of_holds (hform : form ≠ .home) (haccepts : form.Accepts group)
    (hgrouped : group.Grouped) (hlegible : ∀ word ∈ group.parameters, Scan.Legible word)
    (hholds : Holds form group.parameters command) :
    command.Printable form (lastNumber? group.parameters) := by
  have hnumbers : Numbered group.parameters := by
    intro word hmem
    exact (isSome_readFloat_iff (hlegible word hmem).scanned).mpr (haccepts.digits hform word hmem)
  constructor
  · exact hholds.formOrCode_eq
  · exact hholds.fields hform
  · intro letter x hx
    obtain ⟨word, hmem, hletter, _⟩ := exists_of_lastNumber hx
    rw [← hletter]
    exact mem_parameterLetters_of_role (hgrouped.parameters word hmem)
  · intro letter x hx
    obtain ⟨word, hmem, _, hread⟩ := exists_of_lastNumber hx
    exact (hlegible word hmem).isFinite x hread
  · apply haccepts.complete.mono
    intro letter _ hnamed
    exact (isSome_lastNumber hnumbers letter).mpr hnamed

theorem readsBack_unsupported {word : Word} (hscanned : Scan.Scanned word)
    (hrole : word.role = .command) (hcode : Form.ofCode? (Code.ofWord word) = none) :
    ReadsBack (.unsupported (Code.ofWord word)) := by
  have hword : (Code.ofWord word).toWord = word := Code.toWord_ofWord hscanned.not_empty
  constructor
  · intro printedWord hmem
    have heq : printedWord = (Code.ofWord word).toWord := List.mem_singleton.mp hmem
    rw [heq, hword]
    exact hscanned
  · constructor
    · show (Code.ofWord word).toWord.role = .command
      rw [hword]
      exact hrole
    · intro printedWord hmem
      cases hmem
  · have hgroup : ofGroup true ⟨word, []⟩ =
        if true then .ok (.unsupported (Code.ofWord word))
        else .error (.unsupportedCommand (Code.ofWord word)) := ofGroup_unsupported hcode
    show ofGroup true ⟨(Code.ofWord word).toWord, []⟩ = _
    rw [hword, hgroup]
    rfl

/-- What is read from a group of a line is read back from its text. -/
theorem readsBack_of_ofGroup (hgrouped : group.Grouped)
    (hlegible : ∀ word ∈ group.toWords, Scan.Legible word)
    (h : ofGroup skipUnknown group = .ok command) : command.ReadsBack := by
  have hparameters : ∀ word ∈ group.parameters, Scan.Legible word :=
    fun word hmem => hlegible word (List.mem_cons_of_mem _ hmem)
  cases hcode : Form.ofCode? (Code.ofWord group.head) with
  | none =>
      rcases unsupported_of_ofGroup hcode h with ⟨_, rfl⟩
      exact readsBack_unsupported (hlegible group.head List.mem_cons_self).scanned
        hgrouped.head hcode
  | some form =>
      have hholds := holds_of_ofGroup hcode h
      by_cases hform : form = .home
      · subst form
        rw [ofGroup_home hcode] at h
        rcases readHome_eq_ok_iff.mp h with ⟨_, rfl⟩
        exact readsBack_home _
      · have haccepts := (exists_ofGroup (fun word hmem => (hparameters word hmem).scanned)
          hcode).mp ⟨command, h⟩
        exact (printable_of_holds hform haccepts hgrouped hparameters hholds).readsBack hform

end

end Command
end Extrusion
