import Extrusion.Proofs.Scalar.Real

/-!
# Rounding in exact arithmetic

The nearest integer to a real number is at most a half away from it, and an integer
is the nearest one to itself.  Rounding a length in millimetres to micrometres
therefore moves it by half a micrometre at most, and not at all where it is a whole
number of them.
-/

namespace Extrusion
namespace Scalar

inductive WholeMicrometres : ℝ → Prop where
  | intro (k : ℤ) : WholeMicrometres (k / 1000)

/-!
# The nearest integer
-/

theorem abs_nearestInteger_sub_le (a : ℝ) : |nearestInteger a - a| ≤ 1 / 2 := by
  unfold nearestInteger
  rw [abs_le]
  split
  · have hbelow := Int.floor_le (a + 1 / 2)
    have habove := Int.lt_floor_add_one (a + 1 / 2)
    constructor <;> linarith
  · have hbelow := Int.le_ceil (a - 1 / 2)
    have habove := Int.ceil_lt_add_one (a - 1 / 2)
    constructor <;> linarith

theorem nearestInteger_nonneg {a : ℝ} (h : 0 ≤ a) : 0 ≤ nearestInteger a := by
  have hfloor : 0 ≤ ⌊a + 1 / 2⌋ := Int.floor_nonneg.mpr (by linarith)
  unfold nearestInteger
  rw [if_pos h]
  exact_mod_cast hfloor

theorem nearestInteger_add_half (k : ℕ) : nearestInteger (k + 1 / 2) = k + 1 := by
  have hwhole : (k : ℝ) + 1 / 2 + 1 / 2 = (k + 1 : ℕ) := by
    push_cast
    ring
  unfold nearestInteger
  rw [if_pos (by positivity), hwhole, Int.floor_natCast]
  push_cast
  rfl

/-!
# Micrometres
-/

theorem toMicrometres_real (a : ℝ) : toMicrometres a = nearestInteger (a * 1000) / 1000 := by
  have hthousand : (1000.0 : ℝ) = 1000 := by norm_num
  show nearestInteger (a * 1000.0) / 1000.0 = _
  rw [hthousand]

theorem abs_toMicrometres_sub_le (a : ℝ) : |toMicrometres a - a| ≤ 1 / 2000 := by
  have hnear := abs_le.mp (abs_nearestInteger_sub_le (a * 1000))
  rw [toMicrometres_real, abs_le]
  constructor <;> linarith

theorem toMicrometres_nonneg {a : ℝ} (h : 0 ≤ a) : 0 ≤ toMicrometres a := by
  rw [toMicrometres_real]
  exact div_nonneg (nearestInteger_nonneg (by positivity)) (by norm_num)

/-- Rounding one more distance adds half a micrometre to an error, at most. -/
theorem abs_add_toMicrometres_sub_le {a b error : ℝ} (h : |a - b| ≤ error) (c : ℝ) :
    |a + toMicrometres (c - b) - c| ≤ error + 1 / 2000 := by
  have hround := abs_toMicrometres_sub_le (c - b)
  calc |a + toMicrometres (c - b) - c|
      = |(a - b) + (toMicrometres (c - b) - (c - b))| := by ring_nf
    _ ≤ |a - b| + |toMicrometres (c - b) - (c - b)| := abs_add_le _ _
    _ ≤ error + 1 / 2000 := add_le_add h hround

theorem toMicrometres_add_half (k : ℕ) :
    toMicrometres ((k : ℝ) / 1000 + 1 / 2000) = ((k : ℝ) + 1) / 1000 := by
  have hhalf : ((k : ℝ) / 1000 + 1 / 2000) * 1000 = k + 1 / 2 := by ring
  rw [toMicrometres_real, hhalf, nearestInteger_add_half]

theorem toMicrometres_half : toMicrometres (1 / 2000 : ℝ) = 1 / 1000 := by
  have hhalf := toMicrometres_add_half 0
  rw [Nat.cast_zero, zero_div, zero_add, zero_add] at hhalf
  exact hhalf

section

variable {a b : ℝ}

theorem WholeMicrometres.add (ha : WholeMicrometres a) (hb : WholeMicrometres b) :
    WholeMicrometres (a + b) := by
  cases ha with
  | intro k =>
      cases hb with
      | intro l =>
          rw [← add_div, ← Int.cast_add]
          exact .intro (k + l)

end

end Scalar
end Extrusion
