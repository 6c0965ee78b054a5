import Extrusion.Proofs.Layer.Stack
import Extrusion.Proofs.Layer.Trace

/-!
# Joining polylines

A polyline without undefined points stays in one piece: tracing it continues the
last path of a layer where that ends at its source, and starts exactly one path
otherwise.
-/

namespace Extrusion

open Scalar

namespace Path

variable {α : Type}

theorem last_push (path : Path α) (point : Vec2 α) : (path.push point).last = point := by
  simp [last, push]

theorem toList_push (path : Path α) (point : Vec2 α) :
    (path.push point).points.toList = path.points.toList ++ [point] :=
  Array.toList_push

end Path

variable {α : Type} [Scalar α]

inductive Joined (corners : List (Vec2 α)) : List (Path α) → List (Path α) → Prop where
  | continued (paths : List (Path α)) (path longer : Path α) (source : Vec2 α)
      (rest : List (Vec2 α)) (hcorners : corners = source :: rest)
      (touches : (path.last == source) = true)
      (points : longer.points.toList = path.points.toList ++ rest) :
      Joined corners (paths ++ [path]) (paths ++ [longer])
  | started (paths : List (Path α)) (path : Path α)
      (apart : ∀ last ∈ paths.getLast?, ∀ source ∈ corners.head?, (last.last == source) = false)
      (points : path.points.toList = corners) :
      Joined corners paths (paths ++ [path])

def Vec2.IsDefined (p : Vec2 α) : Prop :=
  IsNumber p.x ∧ IsNumber p.y

theorem Vec2.beq_self_iff {p : Vec2 α} : (p == p) = true ↔ p.IsDefined := by
  show (p.x == p.x && p.y == p.y) = true ↔ _
  rw [Bool.and_eq_true]
  rfl

/-!
# Tracing in one piece
-/

theorem trace_continued {paths : Array (Path α)} {front : List (Path α)} {path : Path α}
    {source : Vec2 α} {rest : List (Vec2 α)} (hpaths : paths.toList = front ++ [path])
    (htouches : (path.last == source) = true) (hrest : ∀ p ∈ rest, p.IsDefined) :
    ∃ longer, (Draft.trace paths (source :: rest)).toList = front ++ [longer] ∧
      longer.points.toList = path.points.toList ++ rest := by
  induction rest generalizing paths path source with
  | nil => exact ⟨path, hpaths, (List.append_nil _).symm⟩
  | cons destination rest ih =>
      rcases List.forall_mem_cons.mp hrest with ⟨hdefined, hlater⟩
      rcases toList_extend paths source destination with
        ⟨front', path', hpaths', _, hextend⟩ | ⟨hapart, _⟩
      · have hsame := List.append_inj' (hpaths.symm.trans hpaths') rfl
        rcases hsame with ⟨hfront, hpath⟩
        cases hfront
        cases hpath
        have hlast : ((path.push destination).last == destination) = true := by
          rw [Path.last_push]
          exact Vec2.beq_self_iff.mpr hdefined
        rcases ih hextend hlast hlater with ⟨longer, htrace, hpoints⟩
        refine ⟨longer, htrace, ?_⟩
        rw [hpoints, Path.toList_push, List.append_assoc]
        rfl
      · have hfalse := hapart path (by rw [hpaths]; simp)
        rw [htouches] at hfalse
        cases hfalse

theorem joined_trace (paths : Array (Path α)) {corners : List (Vec2 α)}
    (htwo : 2 ≤ corners.length) (h : ∀ p ∈ corners, p.IsDefined) :
    Joined corners paths.toList (Draft.trace paths corners).toList := by
  rcases corners with _ | ⟨source, _ | ⟨destination, rest⟩⟩
  · simp at htwo
  · simp at htwo
  · rcases List.forall_mem_cons.mp h with ⟨_, hrest⟩
    rcases toList_extend paths source destination with
      ⟨front, path, hpaths, htouches, _⟩ | ⟨hapart, hextend⟩
    · rcases trace_continued hpaths htouches hrest with ⟨longer, htrace, hpoints⟩
      rw [hpaths, htrace]
      exact .continued front path longer source _ rfl htouches hpoints
    · rcases List.forall_mem_cons.mp hrest with ⟨hdefined, hlater⟩
      have hlast : ((Path.new source destination).last == destination) = true :=
        Vec2.beq_self_iff.mpr hdefined
      rcases trace_continued hextend hlast hlater with ⟨longer, htrace, hpoints⟩
      have hstarted : (Draft.trace paths (source :: destination :: rest)).toList =
          paths.toList ++ [longer] := htrace
      rw [hstarted]
      refine .started _ longer ?_ hpoints
      rintro last hmem _ ⟨⟩
      exact hapart last hmem

/-!
# Layers
-/

namespace LayerStack

def pathsAt (stack : LayerStack α) (z : α) : List (Path α) :=
  ((stack.entries.find? fun entry => order (key z) entry.1 == .eq).map
    fun entry => entry.2.paths.toList).getD []

variable [LawfulOrder α]

theorem find?_eq_none_of_ne {z : α} {entries : List (α × Draft α)}
    (h : ∀ entry ∈ entries, entry.1 < z ∨ z < entry.1) :
    entries.find? (fun entry => order z entry.1 == .eq) = none := by
  rw [List.find?_eq_none]
  intro entry hmem horder
  have heq : z = entry.1 := LawfulOrder.order_eq_iff.mp (beq_iff_eq.mp horder)
  rcases h entry hmem with hlt | hgt
  · exact lt_irrefl z (heq ▸ hlt)
  · exact lt_irrefl z (heq ▸ hgt)

theorem pathsAt_of_ne {stack : LayerStack α} {z : α}
    (h : ∀ entry ∈ stack.entries, entry.1 < key z ∨ key z < entry.1) : stack.pathsAt z = [] := by
  unfold pathsAt
  rw [find?_eq_none_of_ne h]
  rfl

theorem pathsAt_append_cons {z : α} {above below : List (α × Draft α)} {draft : Draft α}
    (h : ∀ entry ∈ above, key z < entry.1) :
    (⟨above ++ (key z, draft) :: below⟩ : LayerStack α).pathsAt z = draft.paths.toList := by
  have habove := find?_eq_none_of_ne fun entry hmem => Or.inr (h entry hmem)
  have hself : (order (key z) (key z) == .eq) = true := by
    rw [order_self]
    rfl
  unfold pathsAt
  rw [List.find?_append, habove, Option.none_or]
  simp only [List.find?_cons, hself]
  rfl

theorem Changed.exists_pathsAt {z : α} {change : Draft α → Draft α}
    {entries changed : List (α × Draft α)} (h : Changed (key z) change entries changed) :
    ∃ draft, (⟨entries⟩ : LayerStack α).pathsAt z = draft.paths.toList ∧
      (⟨changed⟩ : LayerStack α).pathsAt z = (change draft).paths.toList := by
  cases h with
  | known draft above below ha hb =>
      exact ⟨draft, pathsAt_append_cons ha, pathsAt_append_cons ha⟩
  | new above below ha hb =>
      refine ⟨.empty, pathsAt_of_ne ?_, pathsAt_append_cons ha⟩
      intro entry hmem
      rcases List.mem_append.mp hmem with habove | hbelow
      · exact Or.inr (ha entry habove)
      · exact Or.inl (hb entry hbelow)

end LayerStack

end Extrusion
