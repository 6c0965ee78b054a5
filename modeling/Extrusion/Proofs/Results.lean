import Mathlib.Data.List.Forall2

/-!
# Results

A chain of steps, each of which may fail, succeeds where every step does, and
otherwise fails as the first step that fails.
-/

namespace Extrusion

theorem bind_eq_ok_iff {ε α β : Type} {result : Except ε α} {next : α → Except ε β} {b : β} :
    (result >>= next) = .ok b ↔ ∃ a, result = .ok a ∧ next a = .ok b := by
  constructor
  · intro h
    cases result with
    | error e => cases h
    | ok a => exact ⟨a, rfl, h⟩
  · rintro ⟨a, rfl, h⟩
    exact h

theorem bind_eq_error_iff {ε α β : Type} {result : Except ε α} {next : α → Except ε β} {e : ε} :
    (result >>= next) = .error e ↔ result = .error e ∨ ∃ a, result = .ok a ∧ next a = .error e := by
  constructor
  · intro h
    cases result with
    | error e' =>
        cases h
        exact Or.inl rfl
    | ok a => exact Or.inr ⟨a, rfl, h⟩
  · rintro (rfl | ⟨a, rfl, h⟩)
    · rfl
    · exact h

theorem mapError_eq_ok_iff {ε ε' α : Type} {f : ε → ε'} {result : Except ε α} {a : α} :
    result.mapError f = .ok a ↔ result = .ok a := by
  cases result with
  | error e => simp [Except.mapError]
  | ok a' => simp [Except.mapError]

theorem mapError_eq_error_iff {ε ε' α : Type} {f : ε → ε'} {result : Except ε α} {e' : ε'} :
    result.mapError f = .error e' ↔ ∃ e, result = .error e ∧ f e = e' := by
  cases result with
  | error e => simp [Except.mapError]
  | ok a => simp [Except.mapError]

theorem mapM_eq_ok_iff {ε α β : Type} {f : α → Except ε β} {as : List α} {bs : List β} :
    as.mapM f = .ok bs ↔ List.Forall₂ (fun a b => f a = .ok b) as bs := by
  induction as generalizing bs with
  | nil =>
      rw [List.mapM_nil, List.forall₂_nil_left_iff]
      exact ⟨fun h => by cases h; rfl, fun h => by rw [h]; rfl⟩
  | cons a as ih =>
      rw [List.mapM_cons, bind_eq_ok_iff]
      constructor
      · rintro ⟨b, hb, h⟩
        obtain ⟨rest, hrest, hbs⟩ := bind_eq_ok_iff.mp h
        cases hbs
        exact .cons hb (ih.mp hrest)
      · intro h
        cases h with
        | cons hb hrest => exact ⟨_, hb, bind_eq_ok_iff.mpr ⟨_, ih.mpr hrest, rfl⟩⟩

theorem mapM_append_eq_ok_iff {ε α β : Type} {f : α → Except ε β} {front back : List α}
    {bs : List β} :
    (front ++ back).mapM f = .ok bs ↔
      ∃ first second, front.mapM f = .ok first ∧ back.mapM f = .ok second ∧
        bs = first ++ second := by
  rw [List.mapM_append, bind_eq_ok_iff]
  constructor
  · rintro ⟨first, hfirst, h⟩
    obtain ⟨second, hsecond, hbs⟩ := bind_eq_ok_iff.mp h
    cases hbs
    exact ⟨first, second, hfirst, hsecond, rfl⟩
  · rintro ⟨first, second, hfirst, hsecond, rfl⟩
    exact ⟨first, hfirst, bind_eq_ok_iff.mpr ⟨second, hsecond, rfl⟩⟩

theorem forM_eq_ok_iff {ε α : Type} {f : α → Except ε Unit} {as : List α} :
    as.forM f = .ok () ↔ ∀ a ∈ as, f a = .ok () := by
  induction as with
  | nil => exact ⟨fun _ a ha => absurd ha List.not_mem_nil, fun _ => rfl⟩
  | cons a as ih =>
      rw [List.forall_mem_cons, ← ih]
      apply bind_eq_ok_iff.trans
      constructor
      · rintro ⟨_, ha, has⟩
        exact ⟨ha, has⟩
      · rintro ⟨ha, has⟩
        exact ⟨(), ha, has⟩

/-!
# First failures
-/

section

variable {ε α β : Type} {f : α → Except ε β} {as back : List α} {a : α} {bs : List β} {e : ε}

theorem mapM_of_failing (has : as.mapM f = .ok bs) (ha : f a = .error e) :
    (as ++ a :: back).mapM f = .error e := by
  rw [List.mapM_append, List.mapM_cons, has, ha]
  rfl

theorem exists_failing_of_mapM (h : as.mapM f = .error e) :
    ∃ front a back bs, as = front ++ a :: back ∧ front.mapM f = .ok bs ∧ f a = .error e := by
  induction as with
  | nil => cases h
  | cons a as ih =>
      rw [List.mapM_cons] at h
      rcases bind_eq_error_iff.mp h with ha | ⟨b, ha, hrest⟩
      · exact ⟨[], a, as, [], rfl, rfl, ha⟩
      · rcases bind_eq_error_iff.mp hrest with has | ⟨bs, _, hnever⟩
        · obtain ⟨front, a', back, bs, rfl, hfront, ha'⟩ := ih has
          refine ⟨a :: front, a', back, b :: bs, rfl, ?_, ha'⟩
          rw [List.mapM_cons, ha, hfront]
          rfl
        · cases hnever

end

end Extrusion
