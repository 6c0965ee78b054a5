import Extrusion.Layer.Descent

/-!
# Heights judged one after the other

What is remembered of the heights so far is changed where a height is judged: a
demotion is noted before the height is, and a refusal may come first.  Whatever
heights, layers and counts are asked about, at most one demotion is answered,
the descent knows whether it was, and a refusal leaves it as it is.
-/

namespace Extrusion

/-- What a descent is asked about: a height, whether there is a layer at it, and the
number of layers. -/
structure HeightQuery (α : Type) where
  height : α
  layerExists : Bool
  layerCount : Nat

abbrev HeightAnswer (α : Type) := Except (DescentError α) (LayerSource α)

/-- Changes of a descent that a refusal may end.  Those before it stay. -/
abbrev Judging (α β : Type) := ExceptT (DescentError α) (StateM (Descent α)) β

variable {α : Type}

/-!
# Answers
-/

namespace HeightAnswer

def isDemotion : HeightAnswer α → Bool
  | .ok (.demoting _) => true
  | _ => false

theorem isDemotion_iff {answer : HeightAnswer α} :
    isDemotion answer = true ↔ ∃ height, answer = .ok (.demoting height) := by
  rcases answer with _ | _ | _ | _ <;> simp [isDemotion]

def accepted (answers : List (HeightQuery α × HeightAnswer α)) : List α :=
  answers.filterMap fun (query, answer) => if answer.isOk then some query.height else none

theorem accepted_cons (query : HeightQuery α) (answer : HeightAnswer α)
    (rest : List (HeightQuery α × HeightAnswer α)) :
    accepted ((query, answer) :: rest) =
      if answer.isOk then query.height :: accepted rest else accepted rest := by
  unfold accepted
  rw [List.filterMap_cons]
  cases answer <;> rfl

end HeightAnswer

namespace Descent

open HeightAnswer

/-!
# Judging
-/

def fall (descent : Descent α) (query : HeightQuery α) : Judging α (LayerSource α) := do
  if descent.primed then throw (.afterPriming query.height descent.lastHeight)
  else if 1 < query.layerCount then
    throw (.late query.height descent.lastHeight query.layerCount)
  else if query.layerCount = 0 then return .fresh
  else
    set { descent with primed := true }
    return .demoting descent.lastHeight

variable [Scalar α]

def findSource (descent : Descent α) (query : HeightQuery α) : Judging α (LayerSource α) :=
  if query.layerExists then return .existing
  else if query.height < descent.lastHeight then descent.fall query
  else return .fresh

def judge (query : HeightQuery α) : Judging α (LayerSource α) := do
  let source ← (← get).findSource query
  set { (← get) with lastHeight := query.height }
  return source

def ask (descent : Descent α) (query : HeightQuery α) : HeightAnswer α × Descent α :=
  (judge query).run.run descent

/-!
# One height
-/

theorem resolve_eq (descent : Descent α) (z : α) (known : Bool) (count : Nat) :
    descent.resolve z known count =
      if known = true then .ok (.existing, ⟨z, descent.primed⟩)
      else if z < descent.lastHeight then
        if descent.primed = true then .error (.afterPriming z descent.lastHeight)
        else if 1 < count then .error (.late z descent.lastHeight count)
        else if count = 0 then .ok (.fresh, ⟨z, false⟩)
        else .ok (.demoting descent.lastHeight, ⟨z, true⟩)
      else .ok (.fresh, ⟨z, descent.primed⟩) := by
  unfold resolve descend
  cases known with
  | true => rfl
  | false =>
      by_cases hlt : z < descent.lastHeight
      · by_cases hprimed : descent.primed = true
        · simp [hlt, hprimed, bind, Except.bind]
        · by_cases hmany : 1 < count
          · simp [hlt, hprimed, hmany, bind, Except.bind]
          · by_cases hnone : count = 0
            · simp [hlt, hprimed, hnone, bind, Except.bind, pure, Except.pure]
            · simp [hlt, hprimed, hmany, hnone, bind, Except.bind, pure, Except.pure]
      · simp [hlt, bind, Except.bind, pure, Except.pure]

inductive Judged (descent : Descent α) (query : HeightQuery α) :
    HeightAnswer α × Descent α → Prop where
  | again (known : query.layerExists = true) :
      Judged descent query (.ok .existing, ⟨query.height, descent.primed⟩)
  | above (new : query.layerExists = false) (rising : ¬ query.height < descent.lastHeight) :
      Judged descent query (.ok .fresh, ⟨query.height, descent.primed⟩)
  | first (new : query.layerExists = false) (falling : query.height < descent.lastHeight)
      (unprimed : descent.primed = false) (empty : query.layerCount = 0) :
      Judged descent query (.ok .fresh, ⟨query.height, false⟩)
  | demoted (new : query.layerExists = false) (falling : query.height < descent.lastHeight)
      (unprimed : descent.primed = false) (single : query.layerCount = 1) :
      Judged descent query (.ok (.demoting descent.lastHeight), ⟨query.height, true⟩)
  | afterPriming (new : query.layerExists = false)
      (falling : query.height < descent.lastHeight) (primed : descent.primed = true) :
      Judged descent query (.error (.afterPriming query.height descent.lastHeight), descent)
  | late (new : query.layerExists = false) (falling : query.height < descent.lastHeight)
      (unprimed : descent.primed = false) (many : 1 < query.layerCount) :
      Judged descent query
        (.error (.late query.height descent.lastHeight query.layerCount), descent)

theorem ask_eq_findSource (descent : Descent α) (query : HeightQuery α) :
    descent.ask query =
      match (descent.findSource query).run.run descent with
      | (.error error, next) => (.error error, next)
      | (.ok source, next) => (.ok source, { next with lastHeight := query.height }) := by
  show (ExceptT.bindCont (m := StateM (Descent α)) _
    ((descent.findSource query).run.run descent).1)
    ((descent.findSource query).run.run descent).2 = _
  rcases (descent.findSource query).run.run descent with ⟨_ | _, _⟩ <;> rfl

theorem judged (descent : Descent α) (query : HeightQuery α) :
    Judged descent query (descent.ask query) := by
  rw [ask_eq_findSource]
  unfold findSource
  cases hknown : query.layerExists with
  | true => exact .again hknown
  | false =>
      rw [if_neg Bool.false_ne_true]
      by_cases hlt : query.height < descent.lastHeight
      · rw [if_pos hlt]
        unfold fall
        cases hprimed : descent.primed with
        | true => exact .afterPriming hknown hlt hprimed
        | false =>
            rw [if_neg Bool.false_ne_true]
            by_cases hmany : 1 < query.layerCount
            · rw [if_pos hmany]
              exact .late hknown hlt hprimed hmany
            · rw [if_neg hmany]
              by_cases hnone : query.layerCount = 0
              · have hfirst := Judged.first hknown hlt hprimed hnone
                rw [if_pos hnone]
                rw [← hprimed] at hfirst
                exact hfirst
              · rw [if_neg hnone]
                exact .demoted hknown hlt hprimed (by omega)
      · rw [if_neg hlt]
        exact .above hknown hlt

/-- The changes lead to what is computed from the descent at once. -/
theorem ask_eq_resolve (descent : Descent α) (query : HeightQuery α) :
    descent.ask query =
      match descent.resolve query.height query.layerExists query.layerCount with
      | .error error => (.error error, descent)
      | .ok (source, next) => (.ok source, next) := by
  have hjudged := judged descent query
  generalize descent.ask query = result at hjudged ⊢
  rw [resolve_eq]
  cases hjudged with
  | again known => simp [known]
  | above new rising => simp [new, rising]
  | first new falling unprimed empty => simp [new, falling, unprimed, empty]
  | demoted new falling unprimed single => simp [new, falling, unprimed, single]
  | afterPriming new falling primed => simp [new, falling, primed]
  | late new falling unprimed many => simp [new, falling, unprimed, many]

/-!
# Heights one after the other
-/

def afterAll (descent : Descent α) (queries : List (HeightQuery α)) : Descent α :=
  queries.foldl (fun descent query => (descent.ask query).2) descent

def answers (descent : Descent α) :
    List (HeightQuery α) → List (HeightQuery α × HeightAnswer α)
  | [] => []
  | query :: rest => (query, (descent.ask query).1) :: (descent.ask query).2.answers rest

variable {descent : Descent α} {query : HeightQuery α}

theorem primed_ask (descent : Descent α) (query : HeightQuery α) :
    descent.primed.toNat + (isDemotion (descent.ask query).1).toNat =
      (descent.ask query).2.primed.toNat := by
  have hjudged := judged descent query
  generalize descent.ask query = result at hjudged ⊢
  cases hjudged with
  | first new falling unprimed empty => rw [unprimed]; rfl
  | demoted new falling unprimed single => rw [unprimed]; rfl
  | _ => rfl

theorem demoting_iff {height : α} :
    (descent.ask query).1 = .ok (.demoting height) ↔
      height = descent.lastHeight ∧ query.layerCount = 1 ∧ query.layerExists = false ∧
        query.height < descent.lastHeight ∧ descent.primed = false := by
  have hjudged := judged descent query
  generalize descent.ask query = result at hjudged ⊢
  cases hjudged with
  | again known => simp [known]
  | above new rising => simp [rising]
  | first new falling unprimed empty => simp [empty]
  | demoted new falling unprimed single =>
      simp [new, falling, unprimed, single, eq_comm]
  | afterPriming new falling primed => simp [primed]
  | late new falling unprimed many =>
      have hmany : query.layerCount ≠ 1 := Nat.ne_of_gt many
      simp [hmany]

theorem refused_iff :
    (∃ error, (descent.ask query).1 = .error error) ↔
      query.layerExists = false ∧ query.height < descent.lastHeight ∧
        (descent.primed = true ∨ 1 < query.layerCount) := by
  have hjudged := judged descent query
  generalize descent.ask query = result at hjudged ⊢
  cases hjudged with
  | again known => simp [known]
  | above new rising => simp [rising]
  | first new falling unprimed empty => simp [unprimed, empty]
  | demoted new falling unprimed single => simp [unprimed, single]
  | afterPriming new falling primed => simp [new, falling, primed]
  | late new falling unprimed many => simp [new, falling, many]

theorem of_refused {error : DescentError α} (h : (descent.ask query).1 = .error error) :
    error = (if descent.primed then .afterPriming query.height descent.lastHeight
        else .late query.height descent.lastHeight query.layerCount) ∧
      (descent.ask query).2 = descent := by
  have hjudged := judged descent query
  generalize descent.ask query = result at hjudged h ⊢
  cases hjudged with
  | afterPriming new falling primed =>
      cases h
      exact ⟨(if_pos primed).symm, rfl⟩
  | late new falling unprimed many =>
      cases h
      rw [unprimed]
      exact ⟨rfl, rfl⟩
  | _ => cases h

theorem lastHeight_ask (descent : Descent α) (query : HeightQuery α) :
    (descent.ask query).2.lastHeight =
      if (descent.ask query).1.isOk then query.height else descent.lastHeight := by
  have hjudged := judged descent query
  generalize descent.ask query = result at hjudged ⊢
  cases hjudged <;> rfl

theorem primed_afterAll (descent : Descent α) (queries : List (HeightQuery α)) :
    descent.primed.toNat + (descent.answers queries).countP (isDemotion ·.2) =
      (descent.afterAll queries).primed.toNat := by
  induction queries generalizing descent with
  | nil => rfl
  | cons query rest ih =>
      have hhere := primed_ask descent query
      show _ = ((descent.ask query).2.afterAll rest).primed.toNat
      rw [← ih, ← hhere, answers, List.countP_cons]
      cases isDemotion (descent.ask query).1 with
      | true => rw [if_pos rfl, Bool.toNat_true, Nat.add_right_comm, Nat.add_assoc]
      | false => rfl

theorem primed_afterAll_iff {queries : List (HeightQuery α)} :
    (descent.afterAll queries).primed = true ↔
      descent.primed = true ∨ ∃ asked ∈ descent.answers queries, isDemotion asked.2 = true := by
  have hcount := primed_afterAll descent queries
  have hle := (descent.afterAll queries).primed.toNat_le
  rw [← List.countP_pos_iff, ← Bool.toNat_eq_one, ← Bool.toNat_eq_one]
  omega

theorem lastHeight_afterAll (descent : Descent α) (queries : List (HeightQuery α)) :
    (descent.afterAll queries).lastHeight =
      (accepted (descent.answers queries)).getLastD descent.lastHeight := by
  induction queries generalizing descent with
  | nil => rfl
  | cons query rest ih =>
      show ((descent.ask query).2.afterAll rest).lastHeight = _
      rw [ih, lastHeight_ask, answers, accepted_cons]
      cases (descent.ask query).1.isOk with
      | true => rw [if_pos rfl, if_pos rfl, List.getLastD_cons]
      | false => rfl

/-- How a descent that was asked some queries answers the next one. -/
structure JudgingRule (queries : List (HeightQuery α)) (query : HeightQuery α) : Prop where
  resolved : (initial.afterAll queries).ask query =
    match (initial.afterAll queries).resolve query.height query.layerExists query.layerCount with
    | .error error => (.error error, initial.afterAll queries)
    | .ok (source, next) => (.ok source, next)
  once : ((initial : Descent α).answers queries).countP (isDemotion ·.2) ≤ 1
  demoting_iff : ∀ height, ((initial.afterAll queries).ask query).1 = .ok (.demoting height) ↔
    height = (initial.afterAll queries).lastHeight ∧ query.layerCount = 1 ∧
      query.layerExists = false ∧ query.height < (initial.afterAll queries).lastHeight ∧
        (initial.afterAll queries).primed = false
  primed : (initial.afterAll queries).primed = true ↔
    ∃ earlier height, (earlier, .ok (.demoting height)) ∈ initial.answers queries
  stays : (initial.afterAll queries).primed = true →
    ∀ later, (initial.afterAll (queries ++ later)).primed = true
  last : (initial.afterAll queries).lastHeight =
    (accepted (initial.answers queries)).getLastD 0
  refused_iff : (∃ error, ((initial.afterAll queries).ask query).1 = .error error) ↔
    query.layerExists = false ∧ query.height < (initial.afterAll queries).lastHeight ∧
      ((initial.afterAll queries).primed = true ∨ 1 < query.layerCount)
  reason : ∀ error, ((initial.afterAll queries).ask query).1 = .error error →
    error =
      if (initial.afterAll queries).primed then
        .afterPriming query.height (initial.afterAll queries).lastHeight
      else .late query.height (initial.afterAll queries).lastHeight query.layerCount
  unchanged : (∃ error, ((initial.afterAll queries).ask query).1 = .error error) →
    ((initial.afterAll queries).ask query).2 = initial.afterAll queries

theorem judgingRule (queries : List (HeightQuery α)) (query : HeightQuery α) :
    JudgingRule queries query where
  resolved := ask_eq_resolve _ query
  once := by
    have hcount := primed_afterAll (initial : Descent α) queries
    have hle := ((initial : Descent α).afterAll queries).primed.toNat_le
    omega
  demoting_iff := by
    intro height
    exact demoting_iff
  primed := by
    rw [primed_afterAll_iff, or_iff_right (by simp [initial])]
    simp only [isDemotion_iff]
    constructor
    · rintro ⟨⟨earlier, answer⟩, hmem, height, rfl⟩
      exact ⟨earlier, height, hmem⟩
    · rintro ⟨earlier, height, hmem⟩
      exact ⟨_, hmem, height, rfl⟩
  stays := by
    intro hprimed later
    have happend : initial.afterAll (queries ++ later) =
        (initial.afterAll queries).afterAll later := List.foldl_append
    rw [happend, primed_afterAll_iff]
    exact Or.inl hprimed
  last := lastHeight_afterAll initial queries
  refused_iff := refused_iff
  reason := by
    intro error h
    exact (of_refused h).1
  unchanged := by
    rintro ⟨error, h⟩
    exact (of_refused h).2

end Descent
end Extrusion
