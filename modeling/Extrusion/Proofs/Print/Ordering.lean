import Extrusion.Proofs.Print.Step

/-!
# Only the order of heights matters

A print compares heights and never computes with them.  When the heights of some
depositions are moved by a map that is strictly increasing on them, every
deposition is judged as before, step by step, and every layer holds what it held
before.  The height that a print starts with takes part in the first comparison,
and changes nothing.
-/

namespace Extrusion

open Scalar LayerStack

/-!
# Moved heights
-/

def LayerSource.moved {α : Type} (f : α → α) : LayerSource α → LayerSource α
  | .existing => .existing
  | .fresh => .fresh
  | .demoting primingHeight => .demoting (f primingHeight)

def DescentError.moved {α : Type} (f : α → α) : DescentError α → DescentError α
  | .late height last layerCount => .late (f height) (f last) layerCount
  | .afterPriming height last => .afterPriming (f height) (f last)

def Deposition.moved {α : Type} (f : α → α) (deposition : Deposition α) : Deposition α :=
  { deposition with height := f deposition.height }

abbrev Decision (α : Type) := Except (DescentError α) (LayerSource α)

def Decision.moved {α : Type} (f : α → α) : Decision α → Decision α
  | .error error => .error (error.moved f)
  | .ok source => .ok (source.moved f)

theorem Decision.moved_id {α : Type} (decision : Decision α) :
    Decision.moved id decision = decision := by
  rcases decision with error | source
  · cases error <;> rfl
  · cases source <;> rfl

variable {α : Type} [Scalar α]

/-- A map that is strictly increasing on some heights, equal heights being one. -/
structure RisesOn (f : α → α) (heights : List α) : Prop where
  isNumber : ∀ z ∈ heights, IsNumber z
  lt : ∀ a ∈ heights, ∀ b ∈ heights, a < b → f a < f b
  beq : ∀ a ∈ heights, ∀ b ∈ heights, (a == b) = true → (f a == f b) = true

inductive Moves (f : α → α) (heights : List α) : α × Draft α → α × Draft α → Prop where
  | intro {z : α} (draft : Draft α) (hz : z ∈ heights) :
      Moves f heights (key z, draft) (key (f z), draft)

namespace Print

def decision (print : Print α) (z : α) : Decision α :=
  match print.descent.resolve z (print.layers.contains z) print.layers.size with
  | .error error => .error error
  | .ok answer => .ok answer.1

def ready (print : Print α) : LayerSource α → Print α
  | .demoting height => print.demote height
  | _ => print

def adding (print : Print α) (deposition : Deposition α) : Print α :=
  match print.add deposition with
  | .error _ => print
  | .ok next => next

def addingAll (print : Print α) (depositions : List (Deposition α)) : Print α :=
  depositions.foldl adding print

def decisions (print : Print α) : List (Deposition α) → List (Decision α)
  | [] => []
  | deposition :: rest =>
      print.decision deposition.height :: (print.adding deposition).decisions rest

def startingAt (last : α) : Print α :=
  ⟨.empty, none, ⟨last, false⟩⟩

def movedAnswer (f : α → α) :
    Except (DescentError α) (LayerSource α × Descent α) →
      Except (DescentError α) (LayerSource α × Descent α)
  | .error error => .error (error.moved f)
  | .ok answer => .ok (answer.1.moved f, ⟨f answer.2.lastHeight, answer.2.primed⟩)

/-- Two prints that differ in their heights alone.  The last height counts where
there is a layer. -/
structure Moved (f : α → α) (heights : List α) (print image : Print α) : Prop where
  layers : List.Forall₂ (Moves f heights) print.layers.entries image.layers.entries
  priming : image.priming = print.priming.map fun entry => (f entry.1, entry.2)
  primed : image.descent.primed = print.descent.primed
  last : print.layers.entries ≠ [] →
    print.descent.lastHeight ∈ heights ∧ image.descent.lastHeight = f print.descent.lastHeight
  nonempty : print.descent.primed = true → print.layers.entries ≠ []

end Print

/-!
# Comparisons
-/

section

variable [LawfulOrder α] {f : α → α} {heights : List α} {a b z : α}

theorem RisesOn.lt_iff (h : RisesOn f heights) (ha : a ∈ heights) (hb : b ∈ heights) :
    f a < f b ↔ a < b := by
  constructor
  · intro hlt
    rcases lt_or_beq_or_gt (h.isNumber a ha) (h.isNumber b hb) with hab | hab | hab
    · exact hab
    · have heq := h.beq a ha b hb hab
      rw [not_beq_of_lt hlt] at heq
      cases heq
    · exact absurd hlt (lt_asymm (h.lt b hb a ha hab))
  · exact h.lt a ha b hb

theorem RisesOn.order (h : RisesOn f heights) (ha : a ∈ heights) (hb : b ∈ heights) :
    Scalar.order (key (f a)) (key (f b)) = Scalar.order (key a) (key b) := by
  rcases lt_or_beq_or_gt (h.isNumber a ha) (h.isNumber b hb) with hab | hab | hab
  · have hmoved := (LawfulOrder.lt_iff.mp (h.lt a ha b hb hab)).2.2
    exact hmoved.trans (LawfulOrder.lt_iff.mp hab).2.2.symm
  · rw [key_eq_of_beq hab, key_eq_of_beq (h.beq a ha b hb hab), order_self, order_self]
  · have hmoved := (LawfulOrder.lt_iff.mp (h.lt b hb a ha hab)).2.2
    rw [← LawfulOrder.order_swap (key (f b)), ← LawfulOrder.order_swap (key b)]
    exact congrArg Ordering.swap (hmoved.trans (LawfulOrder.lt_iff.mp hab).2.2.symm)

/-!
# Layers
-/

variable {entries images : List (α × Draft α)}

theorem updateEntries_moved (h : RisesOn f heights) (hz : z ∈ heights)
    (hentries : List.Forall₂ (Moves f heights) entries images) (change : Draft α → Draft α) :
    List.Forall₂ (Moves f heights) (updateEntries (key z) change entries)
      (updateEntries (key (f z)) change images) := by
  induction hentries with
  | nil => exact .cons (.intro _ hz) .nil
  | @cons entry image rest moved hentry hrest ih =>
      cases hentry with
      | @intro height draft hheight =>
          unfold updateEntries
          rw [h.order hz hheight]
          cases Scalar.order (key z) (key height) with
          | gt => exact .cons (.intro _ hz) (.cons (.intro draft hheight) hrest)
          | eq => exact .cons (.intro (change draft) hheight) hrest
          | lt => exact .cons (.intro draft hheight) ih

theorem contains_moved (h : RisesOn f heights) (hz : z ∈ heights)
    (hentries : List.Forall₂ (Moves f heights) entries images) :
    (⟨images⟩ : LayerStack α).contains (f z) = (⟨entries⟩ : LayerStack α).contains z := by
  unfold contains
  induction hentries with
  | nil => rfl
  | @cons entry image rest moved hentry hrest ih =>
      cases hentry with
      | @intro height draft hheight =>
          rw [List.any_cons, List.any_cons, h.order hz hheight, ih]

theorem removeFrom_moved (h : RisesOn f heights) (hz : z ∈ heights)
    (hentries : List.Forall₂ (Moves f heights) entries images) :
    (removeFrom? (key z) entries = none ∧ removeFrom? (key (f z)) images = none) ∨
      ∃ draft rest moved, removeFrom? (key z) entries = some (draft, rest) ∧
        removeFrom? (key (f z)) images = some (draft, moved) ∧
        List.Forall₂ (Moves f heights) rest moved := by
  induction hentries with
  | nil => exact Or.inl ⟨rfl, rfl⟩
  | @cons entry image rest moved hentry hrest ih =>
      cases hentry with
      | @intro height draft hheight =>
          unfold removeFrom?
          rw [h.order hz hheight]
          by_cases hfound : (Scalar.order (key z) (key height) == .eq) = true
          · rw [if_pos hfound, if_pos hfound]
            exact Or.inr ⟨draft, rest, moved, rfl, rfl, hrest⟩
          · rw [if_neg hfound, if_neg hfound]
            rcases ih with ⟨hnone, hnone'⟩ | ⟨found, others, others', hsome, hsome', hothers⟩
            · rw [hnone, hnone']
              exact Or.inl ⟨rfl, rfl⟩
            · rw [hsome, hsome']
              exact Or.inr ⟨found, _, _, rfl, rfl, .cons (.intro draft hheight) hothers⟩

end

theorem updateEntries_ne_nil (z : α) (change : Draft α → Draft α)
    (entries : List (α × Draft α)) : updateEntries z change entries ≠ [] := by
  cases entries with
  | nil => simp [updateEntries]
  | cons entry rest =>
      rcases entry with ⟨height, draft⟩
      unfold updateEntries
      cases Scalar.order z height <;> simp

/-!
# Judging a height
-/

namespace Print

section

variable {descent : Descent α} {z : α}

theorem resolve_fresh (h : descent.primed = false) :
    descent.resolve z false 0 = .ok (.fresh, ⟨z, false⟩) := by
  rw [Descent.resolve_eq, h]
  by_cases hlt : z < descent.lastHeight <;> simp [hlt]

theorem resolve_moved {f : α → α} {image : Descent α}
    (hlast : image.lastHeight = f descent.lastHeight) (hprimed : image.primed = descent.primed)
    (hlt : f z < image.lastHeight ↔ z < descent.lastHeight) (known : Bool) (count : Nat) :
    image.resolve (f z) known count = movedAnswer f (descent.resolve z known count) := by
  rw [Descent.resolve_eq, Descent.resolve_eq, hprimed]
  cases known with
  | true => rfl
  | false =>
      rw [if_neg Bool.false_ne_true, if_neg Bool.false_ne_true]
      by_cases hfalls : z < descent.lastHeight
      · rw [if_pos hfalls, if_pos (hlt.mpr hfalls), hlast]
        cases descent.primed with
        | true => rfl
        | false =>
            by_cases hmany : 1 < count
            · simp [hmany, movedAnswer, DescentError.moved]
            · by_cases hnone : count = 0
              · simp [hnone, movedAnswer, LayerSource.moved]
              · simp [hmany, hnone, movedAnswer, LayerSource.moved]
      · rw [if_neg hfalls, if_neg (hlt.not.mpr hfalls)]
        rfl

theorem of_resolve {known : Bool} {count : Nat} {answer : LayerSource α × Descent α}
    (h : descent.resolve z known count = .ok answer) :
    answer.2.lastHeight = z ∧
      ∀ height, answer.1 = .demoting height → count ≠ 0 ∧ height = descent.lastHeight := by
  rw [Descent.resolve_eq] at h
  split at h
  · cases h
    exact ⟨rfl, by simp⟩
  · split at h
    · split at h
      · cases h
      · split at h
        · cases h
        · split at h
          · cases h
            exact ⟨rfl, by simp⟩
          · rename_i hnone
            cases h
            refine ⟨rfl, ?_⟩
            intro height hheight
            cases hheight
            exact ⟨hnone, rfl⟩
    · cases h
      exact ⟨rfl, by simp⟩

end

/-!
# Steps
-/

section

variable {print : Print α} {deposition : Deposition α}

theorem adding_of_error {error : DescentError α}
    (h : print.descent.resolve deposition.height
      (print.layers.contains deposition.height) print.layers.size = .error error) :
    print.adding deposition = print := by
  unfold adding
  rw [add_eq, h]

theorem adding_of_ok {source : LayerSource α} {descent : Descent α}
    (h : print.descent.resolve deposition.height
      (print.layers.contains deposition.height) print.layers.size = .ok (source, descent)) :
    print.adding deposition =
      ⟨(print.ready source).layers.update deposition.height (taking deposition),
        (print.ready source).priming, descent⟩ := by
  unfold adding
  rw [add_eq, h]
  cases source <;> rfl

end

variable {f : α → α} {heights : List α} {print image : Print α}

theorem moved_startingAt (f : α → α) (heights : List α) (last last' : α) :
    Moved f heights (startingAt last) (startingAt last') where
  layers := .nil
  priming := rfl
  primed := rfl
  last := fun h => absurd rfl h
  nonempty := by
    intro h
    cases h

theorem Moved.eq_of_id (h : Moved id heights print image) :
    image.layers = print.layers ∧ image.priming = print.priming := by
  have hentries : print.layers.entries = image.layers.entries := by
    refine List.forall₂_eq_eq_eq ▸ h.layers.imp ?_
    rintro _ _ ⟨draft, _⟩
    rfl
  constructor
  · exact congrArg LayerStack.mk hentries.symm
  · rw [h.priming]
    exact congrFun Option.map_id _

theorem Moved.size (h : Moved f heights print image) : image.layers.size = print.layers.size :=
  h.layers.length_eq.symm

section

variable [LawfulOrder α] {z : α}

theorem Moved.contains (h : Moved f heights print image) (hf : RisesOn f heights)
    (hz : z ∈ heights) : image.layers.contains (f z) = print.layers.contains z :=
  contains_moved hf hz h.layers

theorem Moved.demote (h : Moved f heights print image) (hf : RisesOn f heights)
    (hz : z ∈ heights) :
    List.Forall₂ (Moves f heights) (print.demote z).layers.entries
        (image.demote (f z)).layers.entries ∧
      (image.demote (f z)).priming =
        (print.demote z).priming.map fun entry => (f entry.1, entry.2) := by
  unfold Print.demote take?
  rcases removeFrom_moved hf hz h.layers with ⟨hnone, hnone'⟩ |
    ⟨draft, rest, moved, hsome, hsome', hrest⟩
  · rw [hnone, hnone']
    exact ⟨h.layers, h.priming⟩
  · rw [hsome, hsome']
    exact ⟨hrest, rfl⟩

/-- A height is judged as before.  Without a layer the comparison with the last height
may turn out differently, but the layer is a new one either way. -/
theorem Moved.resolve (h : Moved f heights print image) (hf : RisesOn f heights)
    (hz : z ∈ heights) :
    image.descent.resolve (f z) (image.layers.contains (f z)) image.layers.size =
      movedAnswer f
        (print.descent.resolve z (print.layers.contains z) print.layers.size) := by
  rw [h.contains hf hz, h.size]
  by_cases hempty : print.layers.entries = []
  · have hunprimed : print.descent.primed = false := by
      rw [Bool.eq_false_iff]
      exact fun hprimed => h.nonempty hprimed hempty
    have hunknown : print.layers.contains z = false := by simp [LayerStack.contains, hempty]
    have hnone : print.layers.size = 0 := by simp [LayerStack.size, hempty]
    rw [hunknown, hnone, resolve_fresh hunprimed, resolve_fresh (h.primed.trans hunprimed)]
    rfl
  · rcases h.last hempty with ⟨hlast, hlast'⟩
    apply resolve_moved hlast' h.primed
    rw [hlast']
    exact hf.lt_iff hz hlast

theorem Moved.decision (h : Moved f heights print image) (hf : RisesOn f heights)
    (hz : z ∈ heights) : image.decision (f z) = Decision.moved f (print.decision z) := by
  unfold Print.decision
  rw [h.resolve hf hz]
  cases print.descent.resolve z (print.layers.contains z) print.layers.size <;> rfl

theorem Moved.deposited (hf : RisesOn f heights) {deposition : Deposition α}
    (hz : deposition.height ∈ heights) {stack images : LayerStack α}
    (hlayers : List.Forall₂ (Moves f heights) stack.entries images.entries)
    {priming priming' : Option (α × Draft α)}
    (hpriming : priming' = priming.map fun entry => (f entry.1, entry.2))
    {descent : Descent α} (hlast : descent.lastHeight = deposition.height) :
    Moved f heights
      ⟨stack.update deposition.height (taking deposition), priming, descent⟩
      ⟨images.update (f deposition.height) (taking deposition), priming',
        ⟨f descent.lastHeight, descent.primed⟩⟩ where
  layers := updateEntries_moved hf hz hlayers (taking deposition)
  priming := hpriming
  primed := rfl
  last := fun _ => ⟨hlast ▸ hz, rfl⟩
  nonempty := fun _ => updateEntries_ne_nil _ _ _

theorem Moved.ready (h : Moved f heights print image) (hf : RisesOn f heights)
    {known : Bool} {source : LayerSource α} {descent : Descent α}
    (hanswer : print.descent.resolve z known print.layers.size = .ok (source, descent)) :
    List.Forall₂ (Moves f heights) (print.ready source).layers.entries
        (image.ready (source.moved f)).layers.entries ∧
      (image.ready (source.moved f)).priming =
        (print.ready source).priming.map fun entry => (f entry.1, entry.2) := by
  cases source with
  | existing => exact ⟨h.layers, h.priming⟩
  | fresh => exact ⟨h.layers, h.priming⟩
  | demoting height =>
      rcases (of_resolve hanswer).2 height rfl with ⟨hsome, rfl⟩
      have hne : print.layers.entries ≠ [] := by
        intro hempty
        exact hsome (by simp [LayerStack.size, hempty])
      rcases h.last hne with ⟨hlast, hlast'⟩
      exact h.demote hf hlast

theorem Moved.adding (h : Moved f heights print image) (hf : RisesOn f heights)
    {deposition : Deposition α} (hz : deposition.height ∈ heights) :
    Moved f heights (print.adding deposition) (image.adding (deposition.moved f)) := by
  have hresolve := h.resolve hf hz
  cases hanswer : print.descent.resolve deposition.height
      (print.layers.contains deposition.height) print.layers.size with
  | error error =>
      rw [hanswer] at hresolve
      rw [adding_of_error hanswer, adding_of_error hresolve]
      exact h
  | ok answer =>
      rcases answer with ⟨source, descent⟩
      rw [hanswer] at hresolve
      rw [adding_of_ok hanswer, adding_of_ok hresolve]
      rcases h.ready hf hanswer with ⟨hlayers, hpriming⟩
      exact .deposited hf hz hlayers hpriming (of_resolve hanswer).1

end

/-!
# Runs
-/

variable [LawfulOrder α] {depositions : List (Deposition α)}

theorem Moved.run (h : Moved f heights print image) (hf : RisesOn f heights)
    (hheights : ∀ deposition ∈ depositions, deposition.height ∈ heights) :
    image.decisions (depositions.map (Deposition.moved f)) =
        (print.decisions depositions).map (Decision.moved f) ∧
      Moved f heights (print.addingAll depositions)
        (image.addingAll (depositions.map (Deposition.moved f))) := by
  induction depositions generalizing print image with
  | nil => exact ⟨rfl, h⟩
  | cons deposition rest ih =>
      have hz := hheights deposition List.mem_cons_self
      have hrest := ih (h.adding hf hz) fun later hlater =>
        hheights later (List.mem_cons_of_mem deposition hlater)
      refine ⟨?_, hrest.2⟩
      show image.decision (f deposition.height) :: _ = _
      rw [h.decision hf hz, hrest.1]
      rfl

/-- What is left of a print of some depositions when a map moves their heights. -/
structure OrderRule (f : α → α) (depositions : List (Deposition α)) : Prop where
  decisions : Print.empty.decisions (depositions.map (Deposition.moved f)) =
    (Print.empty.decisions depositions).map (Decision.moved f)
  layers : List.Forall₂ (Moves f (depositions.map (·.height)))
    (Print.empty.addingAll depositions).layers.entries
    (Print.empty.addingAll (depositions.map (Deposition.moved f))).layers.entries
  priming : (Print.empty.addingAll (depositions.map (Deposition.moved f))).priming =
    (Print.empty.addingAll depositions).priming.map fun entry => (f entry.1, entry.2)
  start : ∀ last : α,
    (startingAt last).decisions depositions = Print.empty.decisions depositions ∧
      ((startingAt last).addingAll depositions).layers =
        (Print.empty.addingAll depositions).layers ∧
      ((startingAt last).addingAll depositions).priming =
        (Print.empty.addingAll depositions).priming

theorem orderRule {f : Float → Float} {depositions : List (Deposition Float)}
    (h : RisesOn f (depositions.map (·.height))) : OrderRule f depositions := by
  have hheights : ∀ deposition ∈ depositions,
      deposition.height ∈ depositions.map (·.height) := by
    intro deposition hmem
    exact List.mem_map_of_mem hmem
  have hrun := (moved_startingAt f _ 0 0).run h hheights
  refine ⟨hrun.1, hrun.2.layers, hrun.2.priming, ?_⟩
  intro last
  -- The identity moves no height, and the two prints start with different last ones.
  have hid : RisesOn id (depositions.map (·.height)) :=
    ⟨h.isNumber, fun _ _ _ _ hlt => hlt, fun _ _ _ _ hbeq => hbeq⟩
  have hstart := (moved_startingAt id _ 0 last).run hid hheights
  have hmap : depositions.map (Deposition.moved id) = depositions := List.map_id _
  rw [hmap] at hstart
  refine ⟨?_, hstart.2.eq_of_id⟩
  rw [hstart.1, funext Decision.moved_id]
  exact List.map_id' _

def purged : List (Deposition Float) :=
  [0.3, 0.2, 0.2, 0.4, 0.1].map fun z => ⟨[], z, 200, 40⟩

theorem orderRule_below_bed :
    RisesOn (· - 1) (purged.map (·.height)) ∧ OrderRule (· - 1) purged ∧
      Print.empty.decisions purged = [.ok .fresh, .ok (.demoting 0.3), .ok .existing, .ok .fresh,
        .error (.afterPriming 0.1 0.4)] := by
  have hnumbers : ∀ z ∈ purged.map (·.height), (z == z) = true := by decide +kernel
  have hrises : RisesOn (· - 1) (purged.map (·.height)) :=
    ⟨hnumbers, by decide +kernel, by decide +kernel⟩
  exact ⟨hrises, orderRule hrises, by decide +kernel⟩

end Print
end Extrusion
