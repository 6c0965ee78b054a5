import Mathlib
import Extrusion.Proofs.Command.Form
import Extrusion.Proofs.Command.Parameters
import Extrusion.Proofs.Word.Group
import Extrusion.Proofs.Word.Scan

/-!
# Reading groups of words

A group reads as a command of a form exactly where the form accepts it, and the
command holds, for every letter of the form, the last number that the group
gives to it.  A group of any other code is kept as it is or refused.
-/

namespace Extrusion

/-!
## Commands of parameters
-/

namespace Command

/-- A command of a form holds the last numbers of some words, or names the axes
that they name. -/
structure Holds (form : Form) (words : List Word) (command : Command Float) : Prop where
  formOrCode_eq : command.formOrCode = .inl form
  fields : form ≠ .home →
    command.fields = form.parameters.map fun letter => (letter, lastNumber? words letter)
  axes : ∀ axes, command = .home axes →
    (axes.x = true ↔ Named words 'x') ∧ (axes.y = true ↔ Named words 'y') ∧
      (axes.z = true ↔ Named words 'z')

section

variable {form : Form} {p : Parameters Float} {command : Command Float} {words : List Word}

theorem linearOf_eq_ok_iff {rapid : Bool} :
    linearOf form rapid p = .ok command ↔
      p.isEmpty = false ∧
        command = .linear ⟨rapid, p.get? 'x', p.get? 'y', p.get? 'z', p.get? 'e', p.get? 'f',
          p.get? 'h', p.get? 'r', p.get? 's'⟩ := by
  unfold linearOf
  cases p.isEmpty with
  | true => simp
  | false => simp [eq_comm]

theorem arcOf_eq_ok_iff {rotation : Rotation} :
    arcOf form rotation p = .ok command ↔
      ∃ x y i j e, p.get? 'x' = some x ∧ p.get? 'y' = some y ∧ p.get? 'i' = some i ∧
        p.get? 'j' = some j ∧ p.get? 'e' = some e ∧
          command = .arc ⟨rotation, x, y, i, j, e, p.get? 'f'⟩ := by
  constructor
  · intro h
    unfold arcOf at h
    split at h
    · next x y i j e hx hy hi hj he =>
        cases h
        exact ⟨x, y, i, j, e, hx, hy, hi, hj, he, rfl⟩
    · cases h
  · rintro ⟨x, y, i, j, e, hx, hy, hi, hj, he, rfl⟩
    unfold arcOf
    rw [hx, hy, hi, hj, he]

theorem setPositionOf_eq_ok_iff :
    ofParameters .setPosition p = .ok command ↔
      p.isEmpty = false ∧
        command = .setPosition ⟨p.get? 'x', p.get? 'y', p.get? 'z', p.get? 'e'⟩ := by
  unfold ofParameters
  cases p.isEmpty with
  | true => simp
  | false => simp [eq_comm]

theorem setTemperatureOf_eq_ok_iff :
    ofParameters .setTemperature p = .ok command ↔
      ∃ s, p.get? 's' = some s ∧ command = .setTemperature ⟨s, p.get? 'r', p.get? 'd'⟩ := by
  unfold ofParameters
  cases p.get? 's' with
  | none => simp
  | some s => simp [eq_comm]

theorem awaitTemperatureOf_eq_ok_iff :
    ofParameters .awaitTemperature p = .ok command ↔
      ∃ s, p.get? 's' = some s ∧ command = .awaitTemperature ⟨s, p.get? 'r', p.get? 't'⟩ := by
  unfold ofParameters
  cases p.get? 's' with
  | none => simp
  | some s => simp [eq_comm]

theorem fields_of_ofParameters (hform : form ≠ .home) (h : ofParameters form p = .ok command) :
    command.formOrCode = .inl form ∧
      command.fields = form.parameters.map fun letter => (letter, p.get? letter) := by
  cases form with
  | home => exact absurd rfl hform
  | inches | millimetres | absolutePositioning | relativePositioning
  | absoluteExtrusion | relativeExtrusion =>
      cases h
      exact ⟨rfl, rfl⟩
  | rapidMove | linearMove =>
      rcases linearOf_eq_ok_iff.mp h with ⟨_, rfl⟩
      exact ⟨rfl, rfl⟩
  | setPosition =>
      rcases setPositionOf_eq_ok_iff.mp h with ⟨_, rfl⟩
      exact ⟨rfl, rfl⟩
  | clockwiseArc | counterclockwiseArc =>
      rcases arcOf_eq_ok_iff.mp h with ⟨x, y, i, j, e, hx, hy, hi, hj, he, rfl⟩
      refine ⟨rfl, ?_⟩
      simp only [Form.parameters, List.map_cons, List.map_nil, hx, hy, hi, hj, he]
      rfl
  | setTemperature =>
      rcases setTemperatureOf_eq_ok_iff.mp h with ⟨s, hs, rfl⟩
      refine ⟨rfl, ?_⟩
      simp only [Form.parameters, List.map_cons, List.map_nil, hs]
      rfl
  | awaitTemperature =>
      rcases awaitTemperatureOf_eq_ok_iff.mp h with ⟨s, hs, rfl⟩
      refine ⟨rfl, ?_⟩
      simp only [Form.parameters, List.map_cons, List.map_nil, hs]
      rfl

theorem ofParameters_of_fields (hform : form ≠ .home) (hcode : command.formOrCode = .inl form)
    (hfields : command.fields = form.parameters.map fun letter => (letter, p.get? letter))
    (hsome : form.parameters ≠ [] → p.isEmpty = false) :
    ofParameters form p = .ok command := by
  cases command with
  | linear move =>
      rcases move with ⟨_ | _, x, y, z, e, f, h, r, s⟩
      · cases hcode
        cases hfields
        exact linearOf_eq_ok_iff.mpr ⟨hsome (List.cons_ne_nil _ _), rfl⟩
      · cases hcode
        cases hfields
        exact linearOf_eq_ok_iff.mpr ⟨hsome (List.cons_ne_nil _ _), rfl⟩
  | arc move =>
      rcases move with ⟨rotation, x, y, i, j, e, f⟩
      cases rotation with
      | clockwise | counterclockwise =>
          cases hcode
          simp only [fields, Form.parameters, List.map_cons, List.map_nil, List.cons.injEq,
            Prod.mk.injEq, true_and, and_true] at hfields
          rcases hfields with ⟨hx, hy, hi, hj, he, rfl⟩
          exact arcOf_eq_ok_iff.mpr
            ⟨x, y, i, j, e, hx.symm, hy.symm, hi.symm, hj.symm, he.symm, rfl⟩
  | home axes =>
      cases hcode
      exact absurd rfl hform
  | setPosition shift =>
      cases hcode
      rcases shift with ⟨x, y, z, e⟩
      cases hfields
      exact setPositionOf_eq_ok_iff.mpr ⟨hsome (List.cons_ne_nil _ _), rfl⟩
  | setUnit unit => cases unit <;> cases hcode <;> rfl
  | setPositioning reference => cases reference <;> cases hcode <;> rfl
  | setExtrusion reference => cases reference <;> cases hcode <;> rfl
  | setTemperature heating =>
      cases hcode
      rcases heating with ⟨s, r, d⟩
      simp only [fields, Form.parameters, List.map_cons, List.map_nil, List.cons.injEq,
        Prod.mk.injEq, true_and, and_true] at hfields
      rcases hfields with ⟨hs, rfl, rfl⟩
      exact setTemperatureOf_eq_ok_iff.mpr ⟨s, hs.symm, rfl⟩
  | awaitTemperature heating =>
      cases hcode
      rcases heating with ⟨s, r, t⟩
      simp only [fields, Form.parameters, List.map_cons, List.map_nil, List.cons.injEq,
        Prod.mk.injEq, true_and, and_true] at hfields
      rcases hfields with ⟨hs, rfl, rfl⟩
      exact awaitTemperatureOf_eq_ok_iff.mpr ⟨s, hs.symm, rfl⟩
  | unsupported code => cases hcode

theorem ne_nil_iff_named {letters : List Char} (h : ∀ word ∈ words, word.letter ∈ letters) :
    words.isEmpty = false ↔ ∃ letter ∈ letters, Named words letter := by
  constructor
  · intro hne
    obtain ⟨word, hmem⟩ := List.exists_mem_of_ne_nil words (by simpa using hne)
    exact ⟨word.letter, h word hmem, word, hmem, rfl⟩
  · rintro ⟨letter, _, word, hmem, _⟩
    cases words with
    | nil => cases hmem
    | cons head rest => rfl

theorem exists_ofParameters (hform : form ≠ .home)
    (hget : ∀ letter, (p.get? letter).isSome = true ↔ Named words letter)
    (hempty : p.isEmpty = words.isEmpty)
    (hallowed : ∀ word ∈ words, word.letter ∈ form.parameters) :
    (∃ command, ofParameters form p = .ok command) ↔ form.Complete (Named words) := by
  have hsome := ne_nil_iff_named hallowed
  rw [← hempty] at hsome
  cases form with
  | home => exact absurd rfl hform
  | inches | millimetres | absolutePositioning | relativePositioning
  | absoluteExtrusion | relativeExtrusion => exact ⟨fun _ => trivial, fun _ => ⟨_, rfl⟩⟩
  | rapidMove | linearMove =>
      apply Iff.trans _ hsome
      constructor
      · rintro ⟨command, h⟩
        exact (linearOf_eq_ok_iff.mp h).1
      · intro hne
        exact ⟨_, linearOf_eq_ok_iff.mpr ⟨hne, rfl⟩⟩
  | setPosition =>
      apply Iff.trans _ hsome
      constructor
      · rintro ⟨command, h⟩
        exact (setPositionOf_eq_ok_iff.mp h).1
      · intro hne
        exact ⟨_, setPositionOf_eq_ok_iff.mpr ⟨hne, rfl⟩⟩
  | clockwiseArc | counterclockwiseArc =>
      unfold Form.Complete
      simp only [List.forall_mem_cons, ← hget, Option.isSome_iff_exists]
      constructor
      · rintro ⟨command, h⟩
        rcases arcOf_eq_ok_iff.mp h with ⟨x, y, i, j, e, hx, hy, hi, hj, he, _⟩
        exact ⟨⟨x, hx⟩, ⟨y, hy⟩, ⟨i, hi⟩, ⟨j, hj⟩, ⟨e, he⟩, fun _ hc => absurd hc List.not_mem_nil⟩
      · rintro ⟨⟨x, hx⟩, ⟨y, hy⟩, ⟨i, hi⟩, ⟨j, hj⟩, ⟨e, he⟩, _⟩
        exact ⟨_, arcOf_eq_ok_iff.mpr ⟨x, y, i, j, e, hx, hy, hi, hj, he, rfl⟩⟩
  | setTemperature =>
      apply Iff.trans _ (hget 's')
      rw [Option.isSome_iff_exists]
      constructor
      · rintro ⟨command, h⟩
        rcases setTemperatureOf_eq_ok_iff.mp h with ⟨s, hs, _⟩
        exact ⟨s, hs⟩
      · rintro ⟨s, hs⟩
        exact ⟨_, setTemperatureOf_eq_ok_iff.mpr ⟨s, hs, rfl⟩⟩
  | awaitTemperature =>
      apply Iff.trans _ (hget 's')
      rw [Option.isSome_iff_exists]
      constructor
      · rintro ⟨command, h⟩
        rcases awaitTemperatureOf_eq_ok_iff.mp h with ⟨s, hs, _⟩
        exact ⟨s, hs⟩
      · rintro ⟨s, hs⟩
        exact ⟨_, awaitTemperatureOf_eq_ok_iff.mpr ⟨s, hs, rfl⟩⟩

theorem exists_ofParameters_of_read {code : Code} (hform : form ≠ .home)
    (hread : Parameters.read code form.parameters words = .ok p) :
    (∃ command, ofParameters form p = .ok command) ↔ form.Complete (Named words) := by
  rcases Parameters.exists_read.mp ⟨p, hread⟩ with ⟨hallowed, hnumbers⟩
  apply exists_ofParameters hform _ (Parameters.isEmpty_of_read hread) hallowed
  intro letter
  rw [Parameters.get_of_read hread, isSome_lastNumber hnumbers]

theorem readHome_eq_ok_iff {code : Code} :
    readHome code words = .ok command ↔
      (∀ word ∈ words, word.letter ∈ Form.home.parameters) ∧
        command = .home ⟨words.any (·.letter == 'x'), words.any (·.letter == 'y'),
          words.any (·.letter == 'z')⟩ := by
  unfold readHome
  rw [bind_eq_ok_iff]
  constructor
  · rintro ⟨_, hallowed, h⟩
    cases h
    exact ⟨fun word hmem => Parameters.checkAllowed_eq_ok_iff.mp
      (forM_eq_ok_iff.mp hallowed word hmem), rfl⟩
  · rintro ⟨hallowed, rfl⟩
    exact ⟨(), forM_eq_ok_iff.mpr fun word hmem =>
      Parameters.checkAllowed_eq_ok_iff.mpr (hallowed word hmem), rfl⟩

theorem any_letter_iff {letter : Char} :
    (words.any fun word => word.letter == letter) = true ↔ Named words letter := by
  simp [Named]

end

end Command

/-!
## Commands of groups
-/

/-- A group that a form accepts: the code is that of the form, and the
parameters are as the form wants them.  Homing does not read its numbers. -/
structure Form.Accepts (form : Form) (group : WordGroup) : Prop where
  letter : group.head.letter = form.key.1
  number : ∃ zeros, group.head.literalText.toList =
    List.replicate zeros '0' ++ Nat.toDigits 10 form.key.2
  allowed : ∀ word ∈ group.parameters, word.letter ∈ form.parameters
  digits : form ≠ .home → ∀ word ∈ group.parameters, ∃ c ∈ word.literalText.toList, c.isDigit = true
  complete : form.Complete (Named group.parameters)

namespace Command

theorem isSome_readFloat_iff {word : Word} (h : Scan.Scanned word) :
    (Numeric.readFloat? word.literalText).isSome = true ↔
      ∃ c ∈ word.literalText.toList, c.isDigit = true := by
  obtain ⟨l, hl⟩ := h.literal
  have htext : word.literalText = String.ofList l.chars := by
    rw [← hl, String.ofList_toList]
  rw [hl, ← l.digits_ne_nil_iff, htext, l.readFloat_chars]
  split
  · simp [*]
  · simp [*]

section

variable {form : Form} {command : Command Float} {group : WordGroup} {skipUnknown : Bool}

theorem ofGroup_home (hcode : Form.ofCode? (Code.ofWord group.head) = some .home) :
    ofGroup skipUnknown group = readHome (Code.ofWord group.head) group.parameters := by
  simp only [ofGroup, hcode]

theorem ofGroup_form (hcode : Form.ofCode? (Code.ofWord group.head) = some form)
    (hform : form ≠ .home) :
    ofGroup skipUnknown group =
      Parameters.read (Code.ofWord group.head) form.parameters group.parameters >>=
        ofParameters form := by
  simp only [ofGroup, hcode]

theorem ofGroup_unsupported (hcode : Form.ofCode? (Code.ofWord group.head) = none) :
    ofGroup skipUnknown group =
      if skipUnknown then .ok (.unsupported (Code.ofWord group.head))
      else .error (.unsupportedCommand (Code.ofWord group.head)) := by
  simp only [ofGroup, hcode]

theorem ofCode_ofWord_eq_some_iff {word : Word} :
    Form.ofCode? (Code.ofWord word) = some form ↔
      word.letter = form.key.1 ∧ ∃ zeros, word.literalText.toList =
        List.replicate zeros '0' ++ Nat.toDigits 10 form.key.2 :=
  Form.ofCode_eq_some_iff

theorem exists_ofGroup (hscanned : ∀ word ∈ group.parameters, Scan.Scanned word)
    (hcode : Form.ofCode? (Code.ofWord group.head) = some form) :
    (∃ command, ofGroup skipUnknown group = .ok command) ↔ form.Accepts group := by
  rcases ofCode_ofWord_eq_some_iff.mp hcode with ⟨hletter, hnumber⟩
  by_cases hform : form = .home
  · subst form
    rw [ofGroup_home hcode]
    constructor
    · rintro ⟨command, h⟩
      exact ⟨hletter, hnumber, (readHome_eq_ok_iff.mp h).1, fun hne => absurd rfl hne, trivial⟩
    · intro h
      exact ⟨_, readHome_eq_ok_iff.mpr ⟨h.allowed, rfl⟩⟩
  · have hnumbered : Numbered group.parameters ↔
        ∀ word ∈ group.parameters, ∃ c ∈ word.literalText.toList, c.isDigit = true :=
      forall₂_congr fun word hmem => isSome_readFloat_iff (hscanned word hmem)
    rw [ofGroup_form hcode hform]
    constructor
    · rintro ⟨command, h⟩
      obtain ⟨p, hread, hcommand⟩ := bind_eq_ok_iff.mp h
      rcases Parameters.exists_read.mp ⟨p, hread⟩ with ⟨hallowed, hnumbers⟩
      have hcomplete := (exists_ofParameters_of_read hform hread).mp ⟨command, hcommand⟩
      exact ⟨hletter, hnumber, hallowed, fun _ => hnumbered.mp hnumbers, hcomplete⟩
    · intro h
      obtain ⟨p, hread⟩ :=
        Parameters.exists_read.mpr ⟨h.allowed, hnumbered.mpr (h.digits hform)⟩
      obtain ⟨command, hcommand⟩ := (exists_ofParameters_of_read hform hread).mpr h.complete
      exact ⟨command, bind_eq_ok_iff.mpr ⟨p, hread, hcommand⟩⟩

theorem holds_of_ofGroup (hcode : Form.ofCode? (Code.ofWord group.head) = some form)
    (h : ofGroup skipUnknown group = .ok command) : Holds form group.parameters command := by
  by_cases hform : form = .home
  · subst form
    rw [ofGroup_home hcode] at h
    rcases readHome_eq_ok_iff.mp h with ⟨_, rfl⟩
    constructor
    · rfl
    · intro hne
      exact absurd rfl hne
    · intro axes haxes
      cases haxes
      exact ⟨any_letter_iff, any_letter_iff, any_letter_iff⟩
  · rw [ofGroup_form hcode hform] at h
    obtain ⟨p, hread, hcommand⟩ := bind_eq_ok_iff.mp h
    rcases fields_of_ofParameters hform hcommand with ⟨hformOrCode, hfields⟩
    constructor
    · exact hformOrCode
    · intro _
      rw [hfields]
      exact List.map_congr_left fun letter _ => by rw [Parameters.get_of_read hread]
    · rintro axes rfl
      cases hformOrCode
      exact absurd rfl hform

theorem unsupported_of_ofGroup (hcode : Form.ofCode? (Code.ofWord group.head) = none)
    (h : ofGroup skipUnknown group = .ok command) :
    skipUnknown = true ∧ command = .unsupported (Code.ofWord group.head) := by
  rw [ofGroup_unsupported hcode] at h
  cases skipUnknown with
  | false => cases h
  | true =>
      cases h
      exact ⟨rfl, rfl⟩

end

theorem ofWords_eq_ok_iff {skipUnknown : Bool} {words : List Word}
    {commands : List (Command Float)} :
    ofWords skipUnknown words = .ok commands ↔
      ∃ groups : List WordGroup, words = groups.flatMap WordGroup.toWords ∧
        (∀ group ∈ groups, group.Grouped) ∧
          List.Forall₂ (fun group command => ofGroup skipUnknown group = .ok command)
            groups commands := by
  unfold ofWords
  rw [bind_eq_ok_iff]
  constructor
  · rintro ⟨groups, hgroups, hcommands⟩
    rcases WordGroup.ofWords_eq_ok_iff.mp hgroups with ⟨hwords, hgrouped⟩
    exact ⟨groups, hwords, hgrouped, mapM_eq_ok_iff.mp hcommands⟩
  · rintro ⟨groups, hwords, hgrouped, hcommands⟩
    exact ⟨groups, WordGroup.ofWords_eq_ok_iff.mpr ⟨hwords, hgrouped⟩,
      mapM_eq_ok_iff.mpr hcommands⟩

end Command
end Extrusion
