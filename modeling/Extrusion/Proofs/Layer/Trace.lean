import Extrusion.Deposition
import Extrusion.Layer
import Mathlib.Data.List.Chain
import Mathlib.Data.List.Forall2

/-!
# Traces

The edges of a polyline are the pairs of neighbouring points on it.  Tracing
corners draws exactly their edges, in order, and leaves no two neighbouring
paths that could have been one.
-/

namespace Extrusion

def edges {β : Type} : List β → List (β × β)
  | first :: second :: rest => (first, second) :: edges (second :: rest)
  | _ => []

theorem edges_concat {β : Type} (front : List β) (last next : β) :
    edges (front ++ [last, next]) = edges (front ++ [last]) ++ [(last, next)] := by
  induction front with
  | nil => rfl
  | cons first rest ih =>
      cases rest with
      | nil => rfl
      | cons second rest =>
          have hrest : edges (second :: (rest ++ [last, next])) =
              edges (second :: (rest ++ [last])) ++ [(last, next)] := ih
          simp only [List.cons_append, edges, hrest]

namespace Path

variable {α : Type}

theorem exists_toList_eq (path : Path α) :
    ∃ front, path.points.toList = front ++ [path.last] := by
  rcases path with ⟨points, htwo⟩
  have hne : points.toList ≠ [] := by
    intro hnil
    rw [← Array.length_toList, hnil] at htwo
    simp at htwo
  refine ⟨points.toList.dropLast, ?_⟩
  have hlast : points.toList.getLast hne = Path.last ⟨points, htwo⟩ := by
    simp [Path.last, List.getLast_eq_getElem]
  rw [← hlast, List.dropLast_concat_getLast]

theorem edges_push (path : Path α) (point : Vec2 α) :
    edges (path.push point).points.toList =
      edges path.points.toList ++ [(path.last, point)] := by
  rcases exists_toList_eq path with ⟨front, hfront⟩
  have hpush : (path.push point).points.toList = front ++ [path.last, point] := by
    simp [push, hfront]
  rw [hpush, edges_concat, hfront]

theorem edges_new (first second : Vec2 α) :
    edges (Path.new first second).points.toList = [(first, second)] := rfl

theorem first_push (path : Path α) (point : Vec2 α) : (path.push point).first = path.first := by
  have htwo := path.two_le_size
  simp only [first, push]
  exact Array.getElem_push_lt (by omega)

end Path

variable {α : Type}

def pathEdges (paths : List (Path α)) : List (Vec2 α × Vec2 α) :=
  paths.flatMap fun path => edges path.points.toList

theorem pathEdges_append (paths others : List (Path α)) :
    pathEdges (paths ++ others) = pathEdges paths ++ pathEdges others :=
  List.flatMap_append

variable [Scalar α]

/-- Two points are the same one, or they equal each other as points. -/
def Agrees (p q : Vec2 α) : Prop :=
  p = q ∨ (p == q) = true

/-- An edge as it was drawn, and the edge it stands for. -/
def DrawnAs (drawn edge : Vec2 α × Vec2 α) : Prop :=
  Agrees drawn.1 edge.1 ∧ drawn.2 = edge.2

/-- No path ends where the next one starts. -/
def Apart (paths : List (Path α)) : Prop :=
  paths.IsChain fun path next => (path.last == next.first) = false

/-!
# Extending paths
-/

theorem Layer.extend_push {front : Array (Path α)} {path : Path α} {source : Vec2 α}
    (h : (path.last == source) = true) (destination : Vec2 α) :
    extend (front.push path) source destination = front.push (path.push destination) := by
  apply Array.toList_inj.mp
  simp [extend, h, List.modify_eq_take_drop]

theorem Layer.extend_of_apart {paths : Array (Path α)} {source : Vec2 α}
    (h : ∀ path ∈ paths.back?, (path.last == source) = false) (destination : Vec2 α) :
    extend paths source destination = paths.push (.new source destination) := by
  unfold extend
  cases hback : paths.back? with
  | none => rfl
  | some path => simp [h path hback]

theorem Layer.extend_cases (paths : Array (Path α)) (source destination : Vec2 α) :
    (∃ (front : Array (Path α)) (path : Path α), paths = front.push path ∧
      (path.last == source) = true ∧
      extend paths source destination = front.push (path.push destination)) ∨
    ((∀ path ∈ paths.back?, (path.last == source) = false) ∧
      extend paths source destination = paths.push (.new source destination)) := by
  by_cases hjoins : ∃ path ∈ paths.back?, (path.last == source) = true
  · rcases hjoins with ⟨path, hback, hjoins⟩
    rcases Array.back?_eq_some_iff.mp hback with ⟨front, rfl⟩
    exact Or.inl ⟨front, path, rfl, hjoins, extend_push hjoins destination⟩
  · have hapart : ∀ path ∈ paths.back?, (path.last == source) = false := by
      intro path hback
      exact Bool.eq_false_iff.mpr fun hjoins' => hjoins ⟨path, hback, hjoins'⟩
    exact Or.inr ⟨hapart, extend_of_apart hapart destination⟩

theorem toList_extend (paths : Array (Path α)) (source destination : Vec2 α) :
    (∃ front path, paths.toList = front ++ [path] ∧ (path.last == source) = true ∧
      (Layer.extend paths source destination).toList = front ++ [path.push destination]) ∨
    ((∀ path ∈ paths.toList.getLast?, (path.last == source) = false) ∧
      (Layer.extend paths source destination).toList =
        paths.toList ++ [.new source destination]) := by
  rw [Array.getLast?_toList]
  rcases Layer.extend_cases paths source destination with ⟨front, path, rfl, hjoins, hextend⟩ |
    ⟨hapart, hextend⟩
  · rw [hextend]
    exact Or.inl ⟨front.toList, path, Array.toList_push, hjoins, Array.toList_push⟩
  · rw [hextend]
    exact Or.inr ⟨hapart, Array.toList_push⟩

theorem pathEdges_extend (paths : Array (Path α)) (source destination : Vec2 α) :
    ∃ drawn, DrawnAs drawn (source, destination) ∧
      pathEdges (Layer.extend paths source destination).toList =
        pathEdges paths.toList ++ [drawn] := by
  rcases toList_extend paths source destination with ⟨front, path, hpaths, hjoins, hextend⟩ |
    ⟨_, hextend⟩
  · refine ⟨(path.last, destination), ⟨Or.inr hjoins, rfl⟩, ?_⟩
    rw [hextend, hpaths, pathEdges_append, pathEdges_append, List.append_assoc]
    simp [pathEdges, Path.edges_push]
  · refine ⟨(source, destination), ⟨Or.inl rfl, rfl⟩, ?_⟩
    rw [hextend, pathEdges_append]
    simp [pathEdges, Path.edges_new]

theorem apart_extend {paths : Array (Path α)} (h : Apart paths.toList)
    (source destination : Vec2 α) :
    Apart (Layer.extend paths source destination).toList := by
  unfold Apart at h ⊢
  rcases toList_extend paths source destination with ⟨front, path, hpaths, _, hextend⟩ |
    ⟨htouch, hextend⟩
  · rw [hpaths, List.isChain_append] at h
    rw [hextend, List.isChain_append]
    refine ⟨h.1, List.isChain_singleton _, ?_⟩
    intro before hbefore next hnext
    simp only [List.head?_cons, Option.mem_some_iff] at hnext
    subst next
    rw [Path.first_push]
    exact h.2.2 before hbefore path (by simp)
  · rw [hextend, List.isChain_append]
    refine ⟨h, List.isChain_singleton _, ?_⟩
    intro before hbefore next hnext
    simp only [List.head?_cons, Option.mem_some_iff] at hnext
    subst next
    exact htouch before hbefore

/-!
# Tracing corners
-/

theorem apart_trace {paths : Array (Path α)} (h : Apart paths.toList) (corners : List (Vec2 α)) :
    Apart (Draft.trace paths corners).toList := by
  induction corners generalizing paths with
  | nil => exact h
  | cons source rest ih =>
      cases rest with
      | nil => exact h
      | cons destination rest => exact ih (apart_extend h source destination)

theorem pathEdges_trace (paths : Array (Path α)) (corners : List (Vec2 α)) :
    ∃ drawn, List.Forall₂ DrawnAs drawn (edges corners) ∧
      pathEdges (Draft.trace paths corners).toList = pathEdges paths.toList ++ drawn := by
  induction corners generalizing paths with
  | nil => exact ⟨[], .nil, by simp [Draft.trace]⟩
  | cons source rest ih =>
      cases rest with
      | nil => exact ⟨[], .nil, by simp [Draft.trace]⟩
      | cons destination rest =>
          rcases pathEdges_extend paths source destination with ⟨first, hfirst, hextend⟩
          rcases ih (Layer.extend paths source destination) with ⟨others, hothers, htrace⟩
          refine ⟨first :: others, .cons hfirst hothers, ?_⟩
          rw [Draft.trace, htrace, hextend]
          simp

/-!
# Drafts
-/

/-- A draft holds some depositions: it has their edges and their samples, in
order, and none of its paths touches the next one. -/
structure Draft.Collects (draft : Draft α) (depositions : List (Deposition α)) : Prop where
  edges : List.Forall₂ DrawnAs (pathEdges draft.paths.toList)
    (depositions.flatMap fun deposition => Extrusion.edges deposition.corners)
  apart : Apart draft.paths.toList
  temperatures : draft.temperatures.toList = depositions.map fun deposition => deposition.temperature
  feedrates : draft.feedrates.toList = depositions.map fun deposition => deposition.feedrate

theorem Draft.collects_empty : (Draft.empty : Draft α).Collects [] where
  edges := .nil
  apart := .nil
  temperatures := rfl
  feedrates := rfl

theorem Draft.Collects.deposit {draft : Draft α} {depositions : List (Deposition α)}
    (h : draft.Collects depositions) (deposition : Deposition α) :
    (draft.deposit deposition.corners deposition.temperature deposition.feedrate).Collects
      (depositions ++ [deposition]) := by
  rcases pathEdges_trace draft.paths deposition.corners with ⟨drawn, hdrawn, htrace⟩
  refine ⟨?_, apart_trace h.apart deposition.corners, ?_, ?_⟩
  · show List.Forall₂ DrawnAs (pathEdges (trace draft.paths deposition.corners).toList) _
    rw [htrace, List.flatMap_append, List.flatMap_singleton]
    exact List.rel_append h.edges hdrawn
  · simp [Draft.deposit, h.temperatures]
  · simp [Draft.deposit, h.feedrates]

end Extrusion
