import Mathlib
import Extrusion.Numeric.Hypotenuse
import Extrusion.Proofs.Numeric.Accuracy
import Extrusion.Proofs.Numeric.Comparison
import Extrusion.Proofs.Numeric.Root

/-!
# The length is not too short

The length of a pair of finite doubles is infinite, or it is finite and at least
half as long as either of the two.  The correction of the rounded root is small,
because the excess that it is computed from is exactly the error of the root's
square and its computation adds little to that.
-/

namespace Extrusion
namespace Numeric
namespace Hypotenuse

open Double

structure Ordered (a b : Float) : Prop where
  long : IsFinite a
  short : IsFinite b
  nonneg : 0 ≤ value b
  le : value b ≤ value a

/-- Legs whose squares are of normal size. -/
structure Legs (a b : Float) : Prop extends Ordered a b where
  low : (2 : ℚ) ^ (-480 : Int) ≤ value a
  high : value a ≤ (2 : ℚ) ^ (511 : Int)

/-- A number that is about the length for some legs.  The bounds are what keeps every
number in the computation of the excess below three times the longer leg, or its square. -/
structure AboutLength (a b r : ℚ) : Prop where
  low : 9 / 10 * a ≤ r
  high : r ≤ 3 / 2 * a
  short : b ≤ r
  rest : r ≤ b + 11 / 10 * a
  square : |r * r - (a * a + b * b)| ≤ 6 * (a * a / 2 ^ 50)

theorem aboutLength_of_square {a b r : ℚ} (ha : 0 < a) (hb : 0 ≤ b) (hba : b ≤ a) (hr : 0 ≤ r)
    (h : |r * r - (a * a + b * b)| ≤ 6 * (a * a / 2 ^ 50)) : AboutLength a b r := by
  have hsquare := abs_le.mp h
  have ha' : 0 < a * a := mul_pos ha ha
  have hb' : 0 ≤ b * b := mul_nonneg hb hb
  have hba' : b * b ≤ a * a := mul_self_le_mul_self hb hba
  have hab : 0 ≤ a * b := mul_nonneg ha.le hb
  exact {
    low := by
      apply nonneg_le_nonneg_of_sq_le_sq hr
      linarith [hsquare.1]
    high := by
      apply nonneg_le_nonneg_of_sq_le_sq (by positivity)
      linarith [hsquare.2]
    short := by
      apply nonneg_le_nonneg_of_sq_le_sq hr
      linarith [hsquare.1]
    rest := by
      apply nonneg_le_nonneg_of_sq_le_sq (by positivity)
      linarith [hsquare.2]
    square := h }

section

variable {a b root : Float} {r : ℚ}

theorem Legs.moderate (h : Legs a b) : Moderate (value a) where
  low := le_trans (zpow_le_zpow_right₀ one_le_two (by norm_num)) h.low
  high := h.high.trans (zpow_le_zpow_right₀ one_le_two (by norm_num))

theorem Legs.moderate_square (h : Legs a b) : Moderate (value a * value a) where
  low := by
    calc (2 : ℚ) ^ (-1000 : Int) ≤ (2 : ℚ) ^ (-960 : Int) :=
          zpow_le_zpow_right₀ one_le_two (by norm_num)
      _ = (2 : ℚ) ^ (-480 : Int) * (2 : ℚ) ^ (-480 : Int) := by
          rw [← zpow_add₀ two_ne_zero]
          rfl
      _ ≤ value a * value a := mul_self_le_mul_self (by positivity) h.low
  high := by
    calc value a * value a ≤ (2 : ℚ) ^ (511 : Int) * (2 : ℚ) ^ (511 : Int) :=
          mul_self_le_mul_self h.moderate.pos.le h.high
      _ = (2 : ℚ) ^ (1022 : Int) := by
          rw [← zpow_add₀ two_ne_zero]
          rfl

variable {d : Float}

/-- The excess in the form that takes the shorter leg off the root.  Either form bounds the
terms and adds up their shares. -/
theorem near_excess_short (hlegs : Legs a b) (hr : AboutLength (value a) (value b) r)
    (hd : Near (value a) 2 (r - value b) d) :
    Near (value a * value a) 150 (r * r - (value a * value a + value b * value b))
      (a * (2 * d - a) + (d - 2 * (a - b)) * d) := by
  have hsize := hlegs.moderate
  have hsquare := hlegs.moderate_square
  have ha : Near (value a) 0 (value a) a := near_value _ hlegs.long
  have hb : Near (value a) 0 (value b) b := near_value _ hlegs.short
  have hpos := hsize.pos
  have hnonneg := hlegs.nonneg
  have hle := hlegs.le
  rcases hr with ⟨hlow, hhigh, hshort, hrest, hexcess⟩
  generalize value a = A at *
  generalize value b = B at *
  have hinner := (hd.two_mul hsize (by norm_num) (by linarith) (by linarith)).sub ha hsize
    (by norm_num) (by linarith) (by linarith)
  have hleft := ha.mul 1 (3 / 2) hinner hsize hsquare (abs_le.mpr ⟨by linarith, by linarith⟩)
    (abs_le.mpr ⟨by linarith, by linarith⟩) (by norm_num)
  have hgap := (ha.sub hb hsize (by norm_num) (by linarith) (by linarith)).two_mul hsize
    (by norm_num) (by linarith) (by linarith)
  have houter := hd.sub hgap hsize (by norm_num) (by linarith) (by linarith)
  have hright := houter.mul 2 (3 / 2) hd hsize hsquare (abs_le.mpr ⟨by linarith, by linarith⟩)
    (abs_le.mpr ⟨by linarith, by linarith⟩) (by norm_num)
  have hexact : A * (2 * (r - B) - A) + (r - B - 2 * (A - B)) * (r - B) =
      r * r - (A * A + B * B) := by ring
  have hsmall := abs_le.mp hexcess
  rw [← hexact] at hsmall
  have hshare := hsquare.pos
  exact (hleft.add hright hsquare (by norm_num) (by linarith [hsmall.1])
    (by linarith [hsmall.2])).weaken hsquare (by norm_num) hexact

theorem near_excess_long (hlegs : Legs a b) (hr : AboutLength (value a) (value b) r)
    (hd : Near (value a) 2 (r - value a) d) :
    Near (value a * value a) 150 (r * r - (value a * value a + value b * value b))
      (2 * d * (a - 2 * b) + ((4 * d - b) * b + d * d)) := by
  have hsize := hlegs.moderate
  have hsquare := hlegs.moderate_square
  have ha : Near (value a) 0 (value a) a := near_value _ hlegs.long
  have hb : Near (value a) 0 (value b) b := near_value _ hlegs.short
  have hpos := hsize.pos
  have hnonneg := hlegs.nonneg
  have hle := hlegs.le
  rcases hr with ⟨hlow, hhigh, hshort, hrest, hexcess⟩
  generalize value a = A at *
  generalize value b = B at *
  have hdouble := hd.two_mul hsize (by norm_num) (by linarith) (by linarith)
  have hgap := ha.sub (hb.two_mul hsize (by norm_num) (by linarith) (by linarith)) hsize
    (by norm_num) (by linarith) (by linarith)
  have hleft := hdouble.mul 1 1 hgap hsize hsquare (abs_le.mpr ⟨by linarith, by linarith⟩)
    (abs_le.mpr ⟨by linarith, by linarith⟩) (by norm_num)
  have hinner := (hd.four_mul hsize (by norm_num) (by linarith) (by linarith)).sub hb hsize
    (by norm_num) (by linarith) (by linarith)
  have hmiddle := hinner.mul 2 1 hb hsize hsquare (abs_le.mpr ⟨by linarith, by linarith⟩)
    (abs_le.mpr ⟨by linarith, by linarith⟩) (by norm_num)
  have hlast := hd.mul (1 / 2) (1 / 2) hd hsize hsquare (abs_le.mpr ⟨by linarith, by linarith⟩)
    (abs_le.mpr ⟨by linarith, by linarith⟩) (by norm_num)
  have hexact : 2 * (r - A) * (A - 2 * B) + ((4 * (r - A) - B) * B + (r - A) * (r - A)) =
      r * r - (A * A + B * B) := by ring
  have hsmall := abs_le.mp hexcess
  rw [← hexact] at hsmall
  have hshare := hsquare.pos
  have hright := hmiddle.add hlast hsquare (by norm_num) (by nlinarith) (by nlinarith)
  exact (hleft.add hright hsquare (by norm_num) (by linarith [hsmall.1])
    (by linarith [hsmall.2])).weaken hsquare (by norm_num) hexact

theorem near_excess (hlegs : Legs a b) (hr : AboutLength (value a) (value b) r)
    (hroot : Near (value a) 1 r root) :
    Near (value a * value a) 150 (r * r - (value a * value a + value b * value b))
      (excess root a b) := by
  have hsize := hlegs.moderate
  have hpos := hsize.pos
  have hnonneg := hlegs.nonneg
  have hlow := hr.low
  have hhigh := hr.high
  have hshort := hr.short
  have htwo : (1 : ℚ) + 0 + 1 = 2 := by norm_num
  unfold excess
  split
  · have hd := hroot.sub (near_value (value a) hlegs.short) hsize (by norm_num) (by linarith)
      (by linarith)
    rw [htwo] at hd
    exact near_excess_short hlegs hr hd
  · have hd := hroot.sub (near_value (value a) hlegs.long) hsize (by norm_num) (by linarith)
      (by linarith)
    rw [htwo] at hd
    exact near_excess_long hlegs hr hd

theorem near_root (hlegs : Legs a b) :
    ∃ r, AboutLength (value a) (value b) r ∧ Near (value a) 1 r (a * a + b * b).sqrt := by
  have hsize := hlegs.moderate
  have hsquare := hlegs.moderate_square
  have hpos := hsize.pos
  have hnonneg := hlegs.nonneg
  have hle := hlegs.le
  have ha : Near (value a) 0 (value a) a := near_value _ hlegs.long
  have hb : Near (value a) 0 (value b) b := near_value _ hlegs.short
  have habs : |value a| ≤ 1 * value a := by rw [one_mul, abs_of_pos hpos]
  have habs' : |value b| ≤ 1 * value a := by rwa [one_mul, abs_of_nonneg hnonneg]
  have hshare := hsquare.pos
  have hshort : value b * value b ≤ value a * value a := mul_self_le_mul_self hnonneg hle
  have hshort_nonneg : 0 ≤ value b * value b := mul_self_nonneg _
  have hsum := (ha.mul 1 1 ha hsize hsquare habs habs (by norm_num)).add
    (hb.mul 1 1 hb hsize hsquare habs' habs' (by norm_num)) hsquare (by norm_num) (by linarith)
    (by linarith)
  have hclose := abs_le.mp hsum.close
  rcases rounds_sqrt hsum.finite (by linarith [hclose.1]) with ⟨r, hrounds, hr, hradicand⟩
  have hlength : AboutLength (value a) (value b) r := by
    apply aboutLength_of_square hpos hnonneg hle hr
    have htriangle := abs_sub_le (r * r) (value (a * a + b * b))
      (value a * value a + value b * value b)
    linarith [hsum.close, hclose.2]
  refine ⟨r, hlength, ?_⟩
  have hhigh := hlength.high
  have hself : |r - r| ≤ 0 * (value a / 2 ^ 50) := by rw [sub_self, abs_zero, zero_mul]
  have hbound : |r| ≤ 3 * value a := by
    rw [abs_of_nonneg hr]
    linarith
  exact (hrounds.near hsize (by norm_num) hself hbound).weaken hsize (by norm_num) rfl

theorem near_corrected (hlegs : Legs a b) :
    ∃ r, AboutLength (value a) (value b) r ∧ Near (value a) 110 r (corrected a b) := by
  rcases near_root hlegs with ⟨r, hlength, hroot⟩
  refine ⟨r, hlength, ?_⟩
  have hsize := hlegs.moderate
  have hpos := hsize.pos
  have hlow := hlength.low
  have hhigh := hlength.high
  have hexcess := near_excess hlegs hlength hroot
  have hdouble := hroot.two_mul hsize (by norm_num) (by linarith) (by linarith)
  unfold corrected
  generalize (a * a + b * b).sqrt = root at *
  have hexcess_abs : |value (excess root a b)| ≤ 156 * (value a * value a / 2 ^ 50) := by
    have htriangle := abs_add_le (value (excess root a b) -
      (r * r - (value a * value a + value b * value b)))
      (r * r - (value a * value a + value b * value b))
    rw [sub_add_cancel] at htriangle
    linarith [hexcess.close, hlength.square]
  have hdouble_low : 3 / 2 * value a ≤ value (2 * root) := by
    linarith [(abs_le.mp hdouble.close).1]
  have hdouble_pos : 0 < value (2 * root) := by linarith
  have hquotient : |value (excess root a b) / value (2 * root) - 0| ≤
      104 * (value a / 2 ^ 50) := by
    rw [sub_zero, abs_div, abs_of_pos hdouble_pos, div_le_iff₀ hdouble_pos]
    calc |value (excess root a b)| ≤ 156 * (value a * value a / 2 ^ 50) := hexcess_abs
      _ = 104 * (value a / 2 ^ 50) * (3 / 2 * value a) := by ring
      _ ≤ 104 * (value a / 2 ^ 50) * value (2 * root) := by gcongr
  have hcorrection := (rounds_div hexcess.finite hdouble.finite hdouble_pos.ne').near hsize
    (by norm_num) hquotient (by rw [abs_zero]; positivity)
  exact (hroot.sub hcorrection hsize (by norm_num) (by linarith) (by linarith)).weaken hsize
    (by norm_num) (sub_zero r)

end

/-!
## Scaling
-/

/-- A length is infinite, or it is at least half of some leg. -/
def LongEnough (leg : ℚ) (length : Float) : Prop :=
  length = infinity false ∨ IsFinite length ∧ leg ≤ 2 * value length

section

variable {a b : Float}

theorem longEnough_add (h : Ordered a b) : LongEnough (value a) (a + b) := by
  have hnonneg := h.nonneg
  have hle := h.le
  have hsum := rounds_add h.long h.short
  rcases hsum.isFinite_or_eq_infinity (by linarith) with hfinite | hinfinite
  · right
    have hlong := ((rounds_value h.long).abs_value_le hsum (by
      rw [abs_of_nonneg (by linarith), abs_of_nonneg (by linarith)]
      linarith) hfinite).2
    have hsum_nonneg := hsum.value_nonneg (by linarith) hfinite
    rw [abs_of_nonneg (by linarith), abs_of_nonneg hsum_nonneg] at hlong
    exact ⟨hfinite, by linarith⟩
  · exact Or.inl hinfinite

theorem value_lt_of_not_product_le {k l m : Int} (h : Ordered a b) (hk : -1022 ≤ k)
    (hk' : k ≤ 1023) (hm : -1022 ≤ m) (hm' : m ≤ 1023) (hlm : l + k = m)
    (hshort : value b < (2 : ℚ) ^ l) (hnot : ¬ b * powerOfTwo k ≤ a) :
    value a < (2 : ℚ) ^ m := by
  have hpower := isFinite_powerOfTwo hk hk'
  have hproduct := rounds_mul h.short hpower
  rw [value_powerOfTwo hk hk'] at hproduct
  have hbound : |value b * (2 : ℚ) ^ k| ≤ (2 : ℚ) ^ m := by
    rw [abs_of_nonneg (mul_nonneg h.nonneg (by positivity)), ← hlm, zpow_add₀ two_ne_zero]
    exact mul_le_mul_of_nonneg_right hshort.le (by positivity)
  have hvalue := hproduct.abs_value_le_zpow hm hm' hbound
  rw [le_iff_value hvalue.1 h.long, not_le] at hnot
  exact hnot.trans_le ((le_abs_self _).trans hvalue.2)

variable {s : Float} {k : Int}

theorem legs_scaled (h : Ordered a b) (hs : IsFinite s) (hvalue : value s = (2 : ℚ) ^ k)
    (hlow : (2 : ℚ) ^ (-480 : Int) ≤ value a * (2 : ℚ) ^ k)
    (hhigh : value a * (2 : ℚ) ^ k ≤ (2 : ℚ) ^ (511 : Int)) : Legs (a * s) (b * s) := by
  have hlong := rounds_mul h.long hs
  have hshort := rounds_mul h.short hs
  rw [hvalue] at hlong hshort
  have hshort_nonneg : 0 ≤ value b * (2 : ℚ) ^ k := mul_nonneg h.nonneg (by positivity)
  have hle : value b * (2 : ℚ) ^ k ≤ value a * (2 : ℚ) ^ k :=
    mul_le_mul_of_nonneg_right h.le (by positivity)
  have habs := abs_of_nonneg (hshort_nonneg.trans hle)
  have hlong_value := hlong.abs_value_le_zpow (by norm_num) (by norm_num) (habs.trans_le hhigh)
  have hshort_value := hshort.abs_value_le hlong
    (by rwa [habs, abs_of_nonneg hshort_nonneg]) hlong_value.1
  have hlong_nonneg := hlong.value_nonneg (hshort_nonneg.trans hle) hlong_value.1
  have hshort_value_nonneg := hshort.value_nonneg hshort_nonneg hshort_value.1
  rw [abs_of_nonneg hlong_nonneg, abs_of_nonneg hshort_value_nonneg] at hshort_value
  rw [abs_of_nonneg hlong_nonneg] at hlong_value
  exact {
    long := hlong_value.1
    short := hshort_value.1
    nonneg := hshort_value_nonneg
    le := hshort_value.2
    low := hlong.zpow_le_value (by norm_num) (by norm_num) hlow hlong_value.1
    high := hlong_value.2 }

/-- Losing half of the least double leaves at least half of a leg, as both are multiples of
the least double. -/
theorem le_two_mul_of_multiples {u p q : ℚ} (hu : 0 < u) (hp : 0 < p) {j k : Int} (hpk : p = k * u)
    (hqj : q = j * u) (hq : 87 / 100 * p - u / 2 ≤ q) : p ≤ 2 * q := by
  subst hpk hqj
  have hk : 0 < k := by exact_mod_cast pos_of_mul_pos_left hp hu.le
  have hj : 87 / 100 * (k : ℚ) - 1 / 2 ≤ j := by
    apply le_of_mul_le_mul_right _ hu
    linarith
  have hj' : 87 * k - 50 ≤ 100 * j := by
    have : (87 : ℚ) * k - 50 ≤ 100 * j := by linarith
    exact_mod_cast this
  have hkj : k ≤ 2 * j := by omega
  have hkj' : (k : ℚ) ≤ 2 * j := by exact_mod_cast hkj
  calc (k : ℚ) * u ≤ 2 * j * u := mul_le_mul_of_nonneg_right hkj' hu.le
    _ = 2 * (j * u) := mul_assoc _ _ _

theorem longEnough_of_rounds {q : ℚ} {leg length : Float} (hleg : IsFinite leg)
    (hpos : 0 < value leg) (hle : 88 / 100 * value leg ≤ q) (hrounds : Rounds q length) :
    LongEnough (value leg) length := by
  have hq : 0 ≤ q := by linarith
  rcases hrounds.isFinite_or_eq_infinity hq with hfinite | hinfinite
  · right
    refine ⟨hfinite, ?_⟩
    have herror := hrounds.abs_value_sub_le hfinite
    rw [abs_of_nonneg hq, half_least] at herror
    have herror_low := (abs_le.mp herror).1
    rcases exists_value_eq_mul hleg with ⟨m, hm⟩
    rcases exists_value_eq_mul hfinite with ⟨n, hn⟩
    apply le_two_mul_of_multiples (by positivity) hpos hm hn
    linarith
  · exact Or.inl hinfinite

theorem longEnough_scaled (h : Ordered a b) (hs : IsFinite s) (hvalue : value s = (2 : ℚ) ^ k)
    (hlow : (2 : ℚ) ^ (-480 : Int) ≤ value a * (2 : ℚ) ^ k)
    (hhigh : value a * (2 : ℚ) ^ k ≤ (2 : ℚ) ^ (511 : Int)) :
    LongEnough (value a) (corrected (a * s) (b * s) / s) := by
  have hscale : (0 : ℚ) < (2 : ℚ) ^ k := by positivity
  have hsize : Moderate (value a * (2 : ℚ) ^ k) :=
    ⟨le_trans (zpow_le_zpow_right₀ one_le_two (by norm_num)) hlow,
      hhigh.trans (zpow_le_zpow_right₀ one_le_two (by norm_num))⟩
  have hpos := hsize.pos
  have hscaled := rounds_mul h.long hs
  rw [hvalue] at hscaled
  have hnear := hscaled.near hsize (by norm_num : (0 : ℚ) ≤ 2 ^ 48)
    (by rw [sub_self, abs_zero, zero_mul]) (by rw [abs_of_pos hpos]; linarith)
  have hscaled_low := (abs_le.mp hnear.close).1
  rcases near_corrected (legs_scaled h hs hvalue hlow hhigh) with ⟨r, hlength, hcorrected⟩
  have hcorrected_low := (abs_le.mp hcorrected.close).1
  have hr := hlength.low
  -- The root loses a tenth of the leg at most, scaling and correcting it much less.
  have hratio : 88 / 100 * value a ≤ value (corrected (a * s) (b * s)) / value s := by
    rw [hvalue, le_div_iff₀ hscale]
    linarith
  exact longEnough_of_rounds h.long (pos_of_mul_pos_left hpos hscale.le) hratio
    (rounds_div hcorrected.finite hs (by rw [hvalue]; exact hscale.ne'))

theorem least_le_value {x : Float} (hx : IsFinite x) (hpos : 0 < value x) :
    (2 : ℚ) ^ (-1074 : Int) ≤ value x := by
  rcases exists_value_eq_mul hx with ⟨m, hm⟩
  have hleast : (0 : ℚ) < (2 : ℚ) ^ (-1074 : Int) := by positivity
  rw [hm] at hpos ⊢
  have hone : (1 : ℚ) ≤ m := by exact_mod_cast pos_of_mul_pos_left hpos hleast.le
  exact le_mul_of_one_le_left hleast.le hone

theorem value_pos_of_not_product_le (h : Ordered a b) (hnot : ¬ b * powerOfTwo 54 ≤ a) :
    0 < value a := by
  apply lt_of_le_of_ne (h.nonneg.trans h.le)
  intro hzero
  apply hnot
  have hpower := isFinite_powerOfTwo (by norm_num : (-1022 : Int) ≤ 54) (by norm_num)
  have hproduct := rounds_mul h.short hpower
  have hshort : value b = 0 := le_antisymm (hzero ▸ h.le) h.nonneg
  rw [hshort, zero_mul, ← value_zero] at hproduct
  have hvalue := hproduct.value_eq isFinite_zero
  rw [le_iff_value hvalue.1 h.long, hvalue.2, value_zero, ← hzero]

theorem mul_zpow_between {v : ℚ} {i j l m : Int} (hlow : (2 : ℚ) ^ i ≤ v) (hhigh : v ≤ (2 : ℚ) ^ j)
    (hl : l ≤ i + k) (hm : j + k ≤ m) :
    (2 : ℚ) ^ l ≤ v * (2 : ℚ) ^ k ∧ v * (2 : ℚ) ^ k ≤ (2 : ℚ) ^ m := by
  constructor
  · calc (2 : ℚ) ^ l ≤ (2 : ℚ) ^ (i + k) := zpow_le_zpow_right₀ one_le_two hl
      _ = (2 : ℚ) ^ i * (2 : ℚ) ^ k := zpow_add₀ two_ne_zero i k
      _ ≤ v * (2 : ℚ) ^ k := mul_le_mul_of_nonneg_right hlow (by positivity)
  · calc v * (2 : ℚ) ^ k ≤ (2 : ℚ) ^ j * (2 : ℚ) ^ k :=
          mul_le_mul_of_nonneg_right hhigh (by positivity)
      _ = (2 : ℚ) ^ (j + k) := (zpow_add₀ two_ne_zero j k).symm
      _ ≤ (2 : ℚ) ^ m := zpow_le_zpow_right₀ one_le_two hm

theorem exists_scale (h : Ordered a b) (hnot : ¬ b * powerOfTwo 54 ≤ a) :
    ∃ k : Int, IsFinite (scaleFor a b) ∧ value (scaleFor a b) = (2 : ℚ) ^ k ∧
      (2 : ℚ) ^ (-480 : Int) ≤ value a * (2 : ℚ) ^ k ∧
        value a * (2 : ℚ) ^ k ≤ (2 : ℚ) ^ (511 : Int) := by
  have hpos := value_pos_of_not_product_le h hnot
  unfold scaleFor
  split
  case isTrue hlarge =>
    rw [powerOfTwo_lt_iff (by norm_num) (by norm_num) h.long] at hlarge
    have hbound : value a ≤ (2 : ℚ) ^ (1024 : Int) :=
      (le_abs_self _).trans ((abs_value_le h.long).trans largest_lt.le)
    exact ⟨-600, isFinite_powerOfTwo (by norm_num) (by norm_num),
      value_powerOfTwo (by norm_num) (by norm_num),
      mul_zpow_between hlarge.le hbound (by norm_num) (by norm_num)⟩
  case isFalse hlarge =>
    split
    case isTrue hsmall =>
      rw [lt_powerOfTwo_iff (by norm_num) (by norm_num) h.short] at hsmall
      have hbound : value a < (2 : ℚ) ^ (-405 : Int) :=
        value_lt_of_not_product_le h (by norm_num) (by norm_num) (by norm_num) (by norm_num)
          (by norm_num) hsmall hnot
      exact ⟨600, isFinite_powerOfTwo (by norm_num) (by norm_num),
        value_powerOfTwo (by norm_num) (by norm_num),
        mul_zpow_between (least_le_value h.long hpos) hbound.le (by norm_num) (by norm_num)⟩
    case isFalse hsmall =>
      rw [powerOfTwo_lt_iff (by norm_num) (by norm_num) h.long, not_lt] at hlarge
      rw [lt_powerOfTwo_iff (by norm_num) (by norm_num) h.short, not_lt] at hsmall
      exact ⟨0, isFinite_one, value_one.trans (zpow_zero 2).symm,
        mul_zpow_between (hsmall.trans h.le) hlarge (by norm_num) (by norm_num)⟩

theorem longEnough_ofLegs (h : Ordered a b) : LongEnough (value a) (ofLegs a b) := by
  unfold ofLegs
  split
  case isTrue => exact longEnough_add h
  case isFalse hnot =>
    rcases exists_scale h hnot with ⟨k, hfinite, hvalue, hlow, hhigh⟩
    exact longEnough_scaled h hfinite hvalue hlow hhigh

end

theorem LongEnough.mono {p q : ℚ} {length : Float} (h : LongEnough p length) (hle : q ≤ p) :
    LongEnough q length :=
  h.imp_right fun ⟨hfinite, hlong⟩ => ⟨hfinite, hle.trans hlong⟩

end Hypotenuse

open Double

/-- The length of two finite doubles is infinite, or it is finite and neither of the
two is more than twice as long. -/
theorem hypot_longEnough {x y : Float} (hx : IsFinite x) (hy : IsFinite y) :
    Hypotenuse.LongEnough (max |value x| |value y|) (hypot x y) := by
  unfold hypot
  rw [isInf_of_isFinite hx, isInf_of_isFinite hy, isNaN_of_isFinite hx, isNaN_of_isFinite hy]
  simp only [Bool.or_false, Bool.false_eq_true, if_false]
  have hx_abs := isFinite_abs hx
  have hy_abs := isFinite_abs hy
  split
  case isTrue hlt =>
    rw [lt_iff_value hx_abs hy_abs, value_abs hx, value_abs hy] at hlt
    have h : Hypotenuse.Ordered y.abs x.abs := ⟨hy_abs, hx_abs, by rw [value_abs hx]; positivity,
      by rw [value_abs hx, value_abs hy]; exact hlt.le⟩
    rw [max_eq_right hlt.le, ← value_abs hy]
    exact Hypotenuse.longEnough_ofLegs h
  case isFalse hnot =>
    rw [lt_iff_value hx_abs hy_abs, value_abs hx, value_abs hy, not_lt] at hnot
    have h : Hypotenuse.Ordered x.abs y.abs := ⟨hx_abs, hy_abs, by rw [value_abs hy]; positivity,
      by rw [value_abs hx, value_abs hy]; exact hnot⟩
    rw [max_eq_left hnot, ← value_abs hx]
    exact Hypotenuse.longEnough_ofLegs h

end Numeric
end Extrusion
