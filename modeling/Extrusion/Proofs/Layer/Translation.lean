import Extrusion.Layer.Stack
import Extrusion.Proofs.Arc.Translation
import Extrusion.Proofs.Layer.Padding
import Extrusion.Proofs.Layer.Trace

/-!
# Layers from another origin

Layers are built by adding points to paths, by comparing points, and by moving the
ends of paths along the differences of points.  So a layer that is built from points
as they are seen from another origin is the whole layer as it is seen from there.
-/

namespace Extrusion

section

variable {α : Type} [Scalar α]

def Path.seenFrom (origin : Vec2 α) (path : Path α) : Path α :=
  ⟨path.points.map (Vec2.seenFrom origin), by
    rw [Array.size_map]
    exact path.two_le_size⟩

def Layer.seenFrom (origin : Vec2 α) (layer : Layer α) : Layer α :=
  { layer with paths := layer.paths.map (Path.seenFrom origin) }

def Draft.seenFrom (origin : Vec2 α) (draft : Draft α) : Draft α :=
  { draft with paths := draft.paths.map (Path.seenFrom origin) }

def LayerStack.seenFrom (origin : Vec2 α) (stack : LayerStack α) : LayerStack α :=
  ⟨stack.entries.map (Prod.map id (Draft.seenFrom origin))⟩

end

/-!
# Paths
-/

namespace Path

theorem eq_of_points {α : Type} {path other : Path α} (h : path.points = other.points) :
    path = other := by
  cases path
  cases other
  cases h
  rfl

section

variable {α : Type} [Scalar α] (origin : Vec2 α) (path : Path α)

theorem first_seenFrom : (path.seenFrom origin).first = Vec2.seenFrom origin path.first := by
  simp [first, seenFrom]

theorem last_seenFrom : (path.seenFrom origin).last = Vec2.seenFrom origin path.last := by
  simp [last, seenFrom]

theorem second_seenFrom : (path.seenFrom origin).second = Vec2.seenFrom origin path.second := by
  simp [second, seenFrom]

theorem push_seenFrom (point : Vec2 α) :
    (path.seenFrom origin).push (Vec2.seenFrom origin point) =
      (path.push point).seenFrom origin := by
  simp [push, seenFrom]

theorem new_seenFrom (first second : Vec2 α) :
    Path.new (Vec2.seenFrom origin first) (Vec2.seenFrom origin second) =
      (Path.new first second).seenFrom origin := by
  simp [new, seenFrom]

end

variable (origin : Vec2 ℝ) (path : Path ℝ) (length : ℝ)

theorem outward_seenFrom (tip neighbour : Vec2 ℝ) :
    outward (Vec2.seenFrom origin tip) (Vec2.seenFrom origin neighbour) length =
      Vec2.seenFrom origin (outward tip neighbour length) := by
  unfold outward
  rw [Vec2.sub_seenFrom, Vec2.seenFrom_add]

theorem started_seenFrom :
    (path.seenFrom origin).started length =
      (path.started length).map (Vec2.seenFrom origin) := by
  unfold started
  rw [Array.map_set, first_seenFrom, second_seenFrom, outward_seenFrom]
  rfl

theorem padded_seenFrom :
    (path.seenFrom origin).padded length = (path.padded length).seenFrom origin := by
  have hsize : (path.seenFrom origin).points.size = path.points.size := Array.size_map
  have hpoints : ((path.seenFrom origin).padded length).points =
      (path.padded length).points.map (Vec2.seenFrom origin) := by
    simp only [points_padded, started_seenFrom, hsize, Array.getElem_map, Array.map_set,
      outward_seenFrom]
  exact eq_of_points hpoints

end Path

/-!
# Layers
-/

namespace Layer

variable (origin : Vec2 ℝ)

theorem extend_seenFrom (paths : Array (Path ℝ)) (source destination : Vec2 ℝ) :
    extend (paths.map (Path.seenFrom origin)) (Vec2.seenFrom origin source)
        (Vec2.seenFrom origin destination) =
      (extend paths source destination).map (Path.seenFrom origin) := by
  have hlast : ∀ path : Path ℝ,
      ((path.seenFrom origin).last == Vec2.seenFrom origin source) = (path.last == source) := by
    intro path
    rw [Path.last_seenFrom, Vec2.beq_seenFrom]
  rcases extend_cases paths source destination with ⟨front, path, rfl, hjoins, hextend⟩ |
    ⟨hapart, hextend⟩
  · rw [hextend, Array.map_push, extend_push ((hlast path).trans hjoins), Path.push_seenFrom,
      Array.map_push]
  · have hapart' : ∀ path ∈ (paths.map (Path.seenFrom origin)).back?,
        (path.last == Vec2.seenFrom origin source) = false := by
      rw [Array.back?_map]
      intro path hback
      rcases Option.map_eq_some_iff.mp hback with ⟨before, hbefore, rfl⟩
      rw [hlast, hapart before hbefore]
    rw [hextend, extend_of_apart hapart', Path.new_seenFrom, Array.map_push]

end Layer

namespace Draft

theorem empty_seenFrom {α : Type} [Scalar α] (origin : Vec2 α) :
    (empty : Draft α).seenFrom origin = empty := by
  simp [seenFrom, empty]

variable (origin : Vec2 ℝ)

theorem trace_seenFrom (paths : Array (Path ℝ)) (corners : List (Vec2 ℝ)) :
    trace (paths.map (Path.seenFrom origin)) (corners.map (Vec2.seenFrom origin)) =
      (trace paths corners).map (Path.seenFrom origin) := by
  induction corners generalizing paths with
  | nil => rfl
  | cons source rest ih =>
      cases rest with
      | nil => rfl
      | cons destination rest =>
          rw [List.map_cons, List.map_cons, trace, Layer.extend_seenFrom]
          exact ih (Layer.extend paths source destination)

theorem deposit_seenFrom (draft : Draft ℝ) (corners : List (Vec2 ℝ)) (temperature feedrate : ℝ) :
    (draft.seenFrom origin).deposit (corners.map (Vec2.seenFrom origin)) temperature feedrate =
      (draft.deposit corners temperature feedrate).seenFrom origin := by
  unfold deposit seenFrom
  rw [trace_seenFrom]

theorem finish_seenFrom (draft : Draft ℝ) (padding : ℝ) :
    (draft.seenFrom origin).finish padding = (draft.finish padding).seenFrom origin := by
  have hpaths : (draft.paths.map (Path.seenFrom origin)).map (fun path => path.padded padding) =
      (draft.paths.map fun path => path.padded padding).map (Path.seenFrom origin) := by
    rw [Array.map_map, Array.map_map]
    exact Array.map_congr_left fun path _ => Path.padded_seenFrom origin path padding
  unfold finish Layer.seenFrom
  rw [← hpaths]
  rfl

end Draft

/-!
# Stacks

Heights do not move, so an origin neither adds nor removes a layer.
-/

namespace LayerStack

variable {α : Type} [Scalar α] (origin : Vec2 α) (stack : LayerStack α) (z : α)

theorem size_seenFrom : (stack.seenFrom origin).size = stack.size :=
  List.length_map _

theorem contains_seenFrom : (stack.seenFrom origin).contains z = stack.contains z := by
  unfold contains seenFrom
  rw [List.any_map]
  rfl

theorem updateEntries_seenFrom {change changed : Draft α → Draft α}
    (h : ∀ draft : Draft α, changed (draft.seenFrom origin) = (change draft).seenFrom origin)
    (entries : List (α × Draft α)) :
    updateEntries z changed (entries.map (Prod.map id (Draft.seenFrom origin))) =
      (updateEntries z change entries).map (Prod.map id (Draft.seenFrom origin)) := by
  have hempty := h .empty
  rw [Draft.empty_seenFrom] at hempty
  induction entries with
  | nil => exact congrArg (fun draft => [(z, draft)]) hempty
  | cons entry rest ih =>
      rcases entry with ⟨height, draft⟩
      rw [List.map_cons, Prod.map_apply]
      unfold updateEntries
      rw [id]
      cases Scalar.order z height with
      | gt => simp [hempty]
      | eq => simp [h draft]
      | lt => simp [ih]

theorem update_seenFrom {change changed : Draft α → Draft α}
    (h : ∀ draft : Draft α, changed (draft.seenFrom origin) = (change draft).seenFrom origin) :
    (stack.seenFrom origin).update z changed = (stack.update z change).seenFrom origin :=
  congrArg LayerStack.mk (updateEntries_seenFrom origin (key z) h stack.entries)

theorem removeFrom?_seenFrom (entries : List (α × Draft α)) :
    removeFrom? z (entries.map (Prod.map id (Draft.seenFrom origin))) =
      (removeFrom? z entries).map
        (Prod.map (Draft.seenFrom origin) (List.map (Prod.map id (Draft.seenFrom origin)))) := by
  induction entries with
  | nil => rfl
  | cons entry rest ih =>
      rcases entry with ⟨height, draft⟩
      rw [List.map_cons, Prod.map_apply]
      unfold removeFrom?
      rw [id, ih]
      split
      · rfl
      · cases removeFrom? z rest <;> rfl

theorem take?_seenFrom :
    (stack.seenFrom origin).take? z =
      (stack.take? z).map (Prod.map (Draft.seenFrom origin) (LayerStack.seenFrom origin)) := by
  unfold take? seenFrom
  rw [removeFrom?_seenFrom]
  cases removeFrom? (key z) stack.entries <;> rfl

end LayerStack
end Extrusion
