import Mathlib
import Extrusion.Proofs.Numeric.Operations
import Extrusion.Proofs.Scalar.Bounds

/-!
# Comparing values

Finite doubles compare as their values do.  The tests for infinities and NaN
tell finite doubles from the others, and what is not finite stays so in sums
and in products with an infinity.
-/

namespace Extrusion
namespace Numeric
namespace Double

open Float.Model Float.Model.UnpackedFloat

/-!
## Magnitudes
-/

section

variable {m n : Nat} {e f : Int}

theorem Decoded.value_lt (hm : Decoded m e) (hn : Decoded n f)
    (h : magnitudeBits m e < magnitudeBits n f) :
    (m : ℚ) * (2 : ℚ) ^ e < n * (2 : ℚ) ^ f := by
  rw [(magnitudeBits_of_decoded hm).1, (magnitudeBits_of_decoded hn).1] at h
  have hprecision := hm.precision
  have hprecision' := hn.precision
  have hleast := hm.least
  have hleast' := hn.least
  have hleading := hm.leading
  have hleading' := hn.leading
  rcases Int.lt_trichotomy e f with hlt | rfl | hgt
  · have hsmall : (m : ℚ) < (2 : ℚ) ^ (53 : Int) := by exact_mod_cast hprecision
    have hlarge : (2 : ℚ) ^ (52 : Int) ≤ n := by
      exact_mod_cast hleading'.resolve_left (by omega)
    calc (m : ℚ) * (2 : ℚ) ^ e < (2 : ℚ) ^ (53 : Int) * (2 : ℚ) ^ e := by gcongr
      _ = (2 : ℚ) ^ (52 : Int) * (2 : ℚ) ^ (e + 1) := by
          rw [← zpow_add₀ two_ne_zero, ← zpow_add₀ two_ne_zero]
          congr 1
          ring
      _ ≤ n * (2 : ℚ) ^ f := by
          gcongr
          · exact one_le_two
          · omega
  · have hlt : (m : ℚ) < n := by exact_mod_cast (by omega : m < n)
    gcongr
  · omega

theorem Decoded.value_eq_of_magnitudeBits (hm : Decoded m e) (hn : Decoded n f)
    (h : magnitudeBits m e = magnitudeBits n f) :
    (m : ℚ) * (2 : ℚ) ^ e = n * (2 : ℚ) ^ f := by
  have hparts := ofMagnitudeBits_magnitudeBits hm
  rw [h, ofMagnitudeBits_magnitudeBits hn] at hparts
  cases hparts
  rfl

theorem Decoded.magnitudeBits_lt_iff (hm : Decoded m e) (hn : Decoded n f) :
    magnitudeBits m e < magnitudeBits n f ↔ (m : ℚ) * (2 : ℚ) ^ e < n * (2 : ℚ) ^ f := by
  rcases Nat.lt_trichotomy (magnitudeBits m e) (magnitudeBits n f) with hlt | heq | hgt
  · exact iff_of_true hlt (hm.value_lt hn hlt)
  · exact iff_of_false heq.not_lt (hm.value_eq_of_magnitudeBits hn heq).not_lt
  · exact iff_of_false hgt.not_gt (hn.value_lt hm hgt).not_gt

end

section

variable {x y : Float}

theorem exists_signedMagnitude (hx : IsFinite x) :
    ∃ negative m e, Decoded m e ∧ value x = withSign negative (m * (2 : ℚ) ^ e) ∧
      signedMagnitude x.toBits.toNat =
        cond negative (-(magnitudeBits m e : Int)) (magnitudeBits m e) := by
  rcases exists_ofFloat hx with ⟨negative, m, e, hofFloat, hm, hassemble⟩
  refine ⟨negative, m, e, hm, value_of_ofFloat hofFloat, ?_⟩
  have hlt := (magnitudeBits_of_decoded hm).2
  have hbits := toNat_toBits_assemble negative hlt.le
  rw [hassemble] at hbits
  rw [infinityBits_eq] at hlt
  rw [hbits]
  unfold signedMagnitude
  cases negative
  · rw [cond_false, cond_false, if_pos (by omega), Nat.zero_add]
  · rw [cond_true, cond_true, if_neg (by omega), Nat.add_sub_cancel_left]

theorem isNumber_of_isFinite (hx : IsFinite x) : IsNumber x :=
  Nat.le_of_lt hx

/-!
## Order
-/

theorem signed_lt_iff {a b : Bool} {M N : Nat} {p q : ℚ} (hp : 0 ≤ p) (hq : 0 ≤ q)
    (hpos : 0 < M ↔ 0 < p) (hpos' : 0 < N ↔ 0 < q) (hlt : M < N ↔ p < q) (hgt : N < M ↔ q < p) :
    cond a (-(M : Int)) M < cond b (-(N : Int)) N ↔ withSign a p < withSign b q := by
  cases a
  · cases b
    · exact Int.ofNat_lt.trans hlt
    · show (M : Int) < -N ↔ p < -q
      exact iff_of_false (by omega) (by linarith)
  · cases b
    · show -(M : Int) < N ↔ -p < q
      constructor
      · intro h
        rcases Nat.eq_zero_or_pos M with hnone | hsome
        · have := hpos'.mp (by omega)
          linarith
        · have := hpos.mp hsome
          linarith
      · intro h
        rcases hp.eq_or_lt with hnone | hsome
        · have := hpos'.mpr (by linarith)
          omega
        · have := hpos.mpr hsome
          omega
    · show -(M : Int) < -N ↔ -p < -q
      rw [neg_lt_neg_iff, neg_lt_neg_iff, ← hgt]
      exact Int.ofNat_lt

theorem signedMagnitude_lt_iff (hx : IsFinite x) (hy : IsFinite y) :
    signedMagnitude x.toBits.toNat < signedMagnitude y.toBits.toNat ↔ value x < value y := by
  rcases exists_signedMagnitude hx with ⟨a, m, e, hm, hvalue, hbits⟩
  rcases exists_signedMagnitude hy with ⟨b, n, f, hn, hvalue', hbits'⟩
  have hzero : Decoded 0 (-1074) := ⟨by norm_num, by norm_num, by norm_num, Or.inl rfl⟩
  have hpos := hzero.magnitudeBits_lt_iff hm
  have hpos' := hzero.magnitudeBits_lt_iff hn
  rw [magnitudeBits_zero, Nat.cast_zero, zero_mul] at hpos hpos'
  rw [hvalue, hvalue', hbits, hbits']
  exact signed_lt_iff (by positivity) (by positivity) hpos hpos' (hm.magnitudeBits_lt_iff hn)
    (hn.magnitudeBits_lt_iff hm)

theorem lt_iff_value (hx : IsFinite x) (hy : IsFinite y) : x < y ↔ value x < value y := by
  rw [lt_iff, ← signedMagnitude_lt_iff hx hy]
  exact ⟨fun h => h.2.2, fun h => ⟨isNumber_of_isFinite hx, isNumber_of_isFinite hy, h⟩⟩

theorem beq_iff_value (hx : IsFinite x) (hy : IsFinite y) :
    (x == y) = true ↔ value x = value y := by
  have hlt := signedMagnitude_lt_iff hx hy
  have hgt := signedMagnitude_lt_iff hy hx
  rw [beq_iff]
  constructor
  · rintro ⟨_, _, h⟩
    exact le_antisymm (not_lt.mp (mt hgt.mpr h.not_gt)) (not_lt.mp (mt hlt.mpr h.not_lt))
  · intro h
    exact ⟨isNumber_of_isFinite hx, isNumber_of_isFinite hy,
      le_antisymm (not_lt.mp (mt hgt.mp h.not_gt)) (not_lt.mp (mt hlt.mp h.not_lt))⟩

theorem le_iff_value (hx : IsFinite x) (hy : IsFinite y) : x ≤ y ↔ value x ≤ value y := by
  rw [Scalar.float_le_iff, lt_iff_value hx hy, beq_iff_value hx hy, le_iff_lt_or_eq]

/-!
## Finite doubles and others
-/

theorem not_isFinite_of_unpackedFloat {u : UnpackedFloat} (hu : u.isFinite = false)
    (h : x.toBits.toNat = (UnpackedFloat.pack .binary64 u).toNat) : ¬ IsFinite x := by
  unfold IsFinite
  rw [h, infinityBits_eq]
  cases u with
  | notANumber => decide
  | infinity s => cases s <;> decide
  | zero s => cases hu
  | finite s m e hm => cases hu

theorem isFinite_unpack_iff : x.toModel.unpack.isFinite = true ↔ IsFinite x := by
  constructor
  · intro h
    have hu : Unpacked x.toBits.toBitVec x.toModel.unpack := unpacked x.toBits.toBitVec
    have hexponent := toNat_exponentField x.toBits.toBitVec
    have hfield := (exponentField x.toBits.toBitVec).isLt
    rw [UInt64.toNat_toBitVec] at hexponent
    unfold IsFinite
    rw [infinityBits_eq]
    generalize x.toBits.toBitVec = b at hu hexponent hfield
    generalize x.toModel.unpack = u at hu h
    cases hu with
    | infinity _ _ => cases h
    | nan _ _ => cases h
    | zero hleast _ =>
        have hleast' := exponentField_eq_zero_iff.mp hleast
        omega
    | subnormal hleast _ =>
        have hleast' := exponentField_eq_zero_iff.mp hleast
        omega
    | normal _ htop _ =>
        have htop' := mt exponentField_eq_top_iff.mpr htop
        omega
  · intro hx
    rcases exists_value hx with ⟨negative, m, e, hofFloat, _, _⟩
    rw [unpack_eq_unpackedOf hofFloat]
    rcases Nat.eq_zero_or_pos m with rfl | hpos
    · rfl
    · rw [unpackedOf_of_pos _ _ hpos]
      rfl

theorem isFinite_iff : x.isFinite = true ↔ IsFinite x :=
  isFinite_unpack_iff

theorem isInf_of_isFinite (hx : IsFinite x) : x.isInf = false := by
  have hunpack := isFinite_unpack_iff.mpr hx
  show x.toModel.unpack.isInf = false
  cases hu : x.toModel.unpack with
  | infinity s =>
      rw [hu] at hunpack
      cases hunpack
  | _ => rfl

theorem isNaN_of_isFinite (hx : IsFinite x) : x.isNaN = false := by
  have hunpack := isFinite_unpack_iff.mpr hx
  show x.toModel.unpack.isNaN = false
  cases hu : x.toModel.unpack with
  | notANumber =>
      rw [hu] at hunpack
      cases hunpack
  | _ => rfl

theorem not_isFinite_add (hy : ¬ IsFinite y) : ¬ IsFinite (x + y) := by
  have hbits : (x + y).toBits.toNat = (UnpackedFloat.pack .binary64
      (UnpackedFloat.add .binary64 x.toModel.unpack y.toModel.unpack)).toNat := rfl
  rw [← isFinite_unpack_iff] at hy
  apply not_isFinite_of_unpackedFloat _ hbits
  generalize x.toModel.unpack = u
  generalize y.toModel.unpack = v at hy
  cases v with
  | notANumber => cases u <;> rfl
  | infinity s =>
      cases u with
      | infinity t => cases s <;> cases t <;> rfl
      | _ => rfl
  | zero s => exact absurd rfl hy
  | finite s m e hm => exact absurd rfl hy

theorem not_isFinite_mul (hy : ¬ IsFinite y) : ¬ IsFinite (x * y) := by
  have hbits : (x * y).toBits.toNat = (UnpackedFloat.pack .binary64
      (UnpackedFloat.mul .binary64 x.toModel.unpack y.toModel.unpack)).toNat := rfl
  rw [← isFinite_unpack_iff] at hy
  apply not_isFinite_of_unpackedFloat _ hbits
  generalize x.toModel.unpack = u
  generalize y.toModel.unpack = v at hy
  cases v with
  | notANumber => cases u <;> rfl
  | infinity s => cases u <;> rfl
  | zero s => exact absurd rfl hy
  | finite s m e hm => exact absurd rfl hy

theorem not_isFinite_div (hx : ¬ IsFinite x) : ¬ IsFinite (x / y) := by
  have hbits : (x / y).toBits.toNat = (UnpackedFloat.pack .binary64
      (UnpackedFloat.div .binary64 x.toModel.unpack y.toModel.unpack)).toNat := rfl
  rw [← isFinite_unpack_iff] at hx
  apply not_isFinite_of_unpackedFloat _ hbits
  generalize x.toModel.unpack = u at hx
  generalize y.toModel.unpack = v
  cases u with
  | notANumber => cases v <;> rfl
  | infinity s => cases v <;> rfl
  | zero s => exact absurd rfl hx
  | finite s m e hm => exact absurd rfl hx

theorem unpack_infinity : (infinity false).toModel.unpack = .infinity .positive := by
  rfl

theorem rounds_div_infinity (hx : IsFinite x) : Rounds 0 (x / infinity false) := by
  have hbits : (x / infinity false).toBits.toNat = (UnpackedFloat.pack .binary64
      (UnpackedFloat.div .binary64 x.toModel.unpack (infinity false).toModel.unpack)).toNat := rfl
  rcases exists_value hx with ⟨negative, m, e, hofFloat, _, _⟩
  rw [unpack_eq_unpackedOf hofFloat, unpack_infinity] at hbits
  apply @rounds_zero _ negative
  rw [hbits]
  rcases Nat.eq_zero_or_pos m with rfl | hpos
  · cases negative <;> rfl
  · rw [unpackedOf_of_pos _ _ hpos]
    cases negative <;> rfl

end

/-!
## Powers of two
-/

section

variable {k : Int}

theorem ofFloat_powerOfTwo (hlow : -1022 ≤ k) (hhigh : k ≤ 1023) :
    ofFloat (powerOfTwo k) = .finite false (2 ^ 52) (k - 52) := by
  have hdecoded : Decoded (2 ^ 52) (k - 52) :=
    ⟨by norm_num, by omega, by omega, Or.inr le_rfl⟩
  have hbits : (k + 1023).toNat * Nat.pow 2 52 = magnitudeBits (2 ^ 52) (k - 52) := by
    rw [(magnitudeBits_of_decoded hdecoded).1]
    show (k + 1023).toNat * 2 ^ 52 = _
    omega
  rw [powerOfTwo, hbits]
  exact ofFloat_assemble false hdecoded

theorem isFinite_powerOfTwo (hlow : -1022 ≤ k) (hhigh : k ≤ 1023) : IsFinite (powerOfTwo k) :=
  isFinite_of_ofFloat (ofFloat_powerOfTwo hlow hhigh)

theorem value_powerOfTwo (hlow : -1022 ≤ k) (hhigh : k ≤ 1023) :
    value (powerOfTwo k) = (2 : ℚ) ^ k := by
  rw [value_of_ofFloat (ofFloat_powerOfTwo hlow hhigh), Nat.cast_pow, Nat.cast_ofNat,
    ← zpow_natCast, ← zpow_add₀ two_ne_zero]
  show (2 : ℚ) ^ _ = _
  congr 1
  omega

theorem powerOfTwo_lt_iff {x : Float} (hlow : -1022 ≤ k) (hhigh : k ≤ 1023) (hx : IsFinite x) :
    powerOfTwo k < x ↔ (2 : ℚ) ^ k < value x := by
  rw [lt_iff_value (isFinite_powerOfTwo hlow hhigh) hx, value_powerOfTwo hlow hhigh]

theorem lt_powerOfTwo_iff {x : Float} (hlow : -1022 ≤ k) (hhigh : k ≤ 1023) (hx : IsFinite x) :
    x < powerOfTwo k ↔ value x < (2 : ℚ) ^ k := by
  rw [lt_iff_value hx (isFinite_powerOfTwo hlow hhigh), value_powerOfTwo hlow hhigh]

end

/-!
## Small integers
-/

theorem isFinite_zero : IsFinite 0 :=
  isFinite_of_ofFloat ofFloat_zero

theorem value_zero : value 0 = 0 :=
  value_of_zero ofFloat_zero

theorem isFinite_one : IsFinite 1 :=
  isFinite_of_ofFloat ofFloat_one

theorem value_one : value 1 = 1 := by
  rw [value_of_ofFloat ofFloat_one]
  norm_num [withSign]

theorem ofFloat_two : ofFloat 2 = .finite false (2 ^ 52) (-51) := by
  decide +kernel

theorem isFinite_two : IsFinite 2 :=
  isFinite_of_ofFloat ofFloat_two

theorem value_two : value 2 = 2 := by
  rw [value_of_ofFloat ofFloat_two]
  norm_num [withSign]

theorem ofFloat_four : ofFloat 4 = .finite false (2 ^ 52) (-50) := by
  decide +kernel

theorem isFinite_four : IsFinite 4 :=
  isFinite_of_ofFloat ofFloat_four

theorem value_four : value 4 = 4 := by
  rw [value_of_ofFloat ofFloat_four]
  norm_num [withSign]

end Double
end Numeric
end Extrusion
