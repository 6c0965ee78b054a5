import Mathlib
import Extrusion.Command
import Extrusion.Proofs.Word.Literal

/-!
# Codes and forms

A code is that of a form where its letter is, and where its literal is the
number of the form behind any number of zeros.  What a form cannot do without
is stated over the letters that are given.
-/

namespace Extrusion

namespace Code

theorem number_eq_some_iff {code : Code} {n : Nat} (hn : n < 2 ^ 32) :
    code.number? = some n ↔
      ∃ zeros, code.literal.toList = List.replicate zeros '0' ++ Nat.toDigits 10 n := by
  have hnumber : code.number? =
      if code.literal.toList ≠ [] ∧ code.literal.toList.all Char.isDigit ∧
          Text.ofDigits code.literal.toList < 2 ^ 32 then
        some (Text.ofDigits code.literal.toList)
      else none := rfl
  rw [hnumber]
  generalize code.literal.toList = digits
  constructor
  · intro h
    split at h
    · next hdigits =>
        cases h
        exact Text.exists_zeros hdigits.1 (List.all_eq_true.mp hdigits.2.1)
    · cases h
  · rintro ⟨zeros, rfl⟩
    have hne : List.replicate zeros '0' ++ Nat.toDigits 10 n ≠ [] := by
      apply List.append_ne_nil_of_right_ne_nil
      exact List.ne_nil_of_length_pos Nat.length_toDigits_pos
    have hvalue : Text.ofDigits (List.replicate zeros '0' ++ Nat.toDigits 10 n) = n := by
      rw [Text.ofDigits_zeros_append, Text.ofDigits_toDigits]
    rw [hvalue]
    exact if_pos ⟨hne, List.all_eq_true.mpr Text.isDigit_zeros_append, hn⟩

theorem toWord_ofWord {word : Word} (h : word.literal ≠ some "") :
    (ofWord word).toWord = word := by
  rcases word with ⟨letter, _ | literal⟩
  · rfl
  · have hliteral : literal ≠ "" := fun hempty => h (congrArg some hempty)
    show Word.mk letter (if literal = "" then none else some literal) = _
    rw [if_neg hliteral]

end Code

namespace Form

/-!
## Codes of forms
-/

theorem key_lt (form : Form) : form.key.2 < 2 ^ 32 := by
  cases form <;> decide

theorem find_key (form : Form) : (all.find? fun f => f.key == form.key) = some form := by
  cases form <;> rfl

theorem ofCode_eq_some_iff {code : Code} {form : Form} :
    ofCode? code = some form ↔
      code.letter = form.key.1 ∧
        ∃ zeros, code.literal.toList = List.replicate zeros '0' ++ Nat.toDigits 10 form.key.2 := by
  unfold ofCode?
  rw [Option.bind_eq_some_iff]
  constructor
  · rintro ⟨number, hnumber, hfind⟩
    have hkey : form.key = (code.letter, number) := by
      have := List.find?_some hfind
      exact beq_iff_eq.mp this
    have hsecond : form.key.2 = number := congrArg Prod.snd hkey
    rw [← hsecond] at hnumber
    exact ⟨(congrArg Prod.fst hkey).symm, (Code.number_eq_some_iff form.key_lt).mp hnumber⟩
  · rintro ⟨hletter, hliteral⟩
    refine ⟨form.key.2, (Code.number_eq_some_iff form.key_lt).mpr hliteral, ?_⟩
    rw [hletter]
    exact form.find_key

theorem ofCode_code (form : Form) : ofCode? form.code = some form := by
  rw [ofCode_eq_some_iff]
  exact ⟨rfl, 0, String.toList_ofList⟩

/-!
## Parameters of forms
-/

def Complete (given : Char → Prop) : Form → Prop
  | .rapidMove | .linearMove => ∃ letter ∈ ['x', 'y', 'z', 'e', 'f', 'h', 'r', 's'], given letter
  | .clockwiseArc | .counterclockwiseArc => ∀ letter ∈ ['x', 'y', 'i', 'j', 'e'], given letter
  | .setPosition => ∃ letter ∈ ['x', 'y', 'z', 'e'], given letter
  | .setTemperature | .awaitTemperature => given 's'
  | .inches | .millimetres | .home | .absolutePositioning | .relativePositioning
  | .absoluteExtrusion | .relativeExtrusion => True

theorem Complete.mono {given given' : Char → Prop} {form : Form} (h : form.Complete given)
    (himp : ∀ letter ∈ form.parameters, given letter → given' letter) :
    form.Complete given' := by
  have hexists : (∃ letter ∈ form.parameters, given letter) →
      ∃ letter ∈ form.parameters, given' letter := by
    rintro ⟨letter, hmem, hgiven⟩
    exact ⟨letter, hmem, himp letter hmem hgiven⟩
  cases form with
  | rapidMove => exact hexists h
  | linearMove => exact hexists h
  | setPosition => exact hexists h
  | clockwiseArc | counterclockwiseArc =>
      intro letter hmem
      exact himp letter (List.mem_append_left ['f'] hmem) (h letter hmem)
  | setTemperature => exact himp 's' List.mem_cons_self h
  | awaitTemperature => exact himp 's' List.mem_cons_self h
  | inches | millimetres | home | absolutePositioning | relativePositioning
  | absoluteExtrusion | relativeExtrusion => trivial

theorem Complete.exists_given {given : Char → Prop} {form : Form} (h : form.Complete given)
    (hform : form ≠ .home) (hparameters : form.parameters ≠ []) :
    ∃ letter ∈ form.parameters, given letter := by
  cases form with
  | rapidMove => exact h
  | linearMove => exact h
  | setPosition => exact h
  | clockwiseArc => exact ⟨'x', List.mem_cons_self, h 'x' List.mem_cons_self⟩
  | counterclockwiseArc => exact ⟨'x', List.mem_cons_self, h 'x' List.mem_cons_self⟩
  | setTemperature => exact ⟨'s', List.mem_cons_self, h⟩
  | awaitTemperature => exact ⟨'s', List.mem_cons_self, h⟩
  | home => exact absurd rfl hform
  | inches | millimetres | absolutePositioning | relativePositioning
  | absoluteExtrusion | relativeExtrusion => exact absurd rfl hparameters

theorem nodup_parameters (form : Form) : form.parameters.Nodup := by
  cases form <;> decide

end Form

end Extrusion
