import Mathlib
import Extrusion.Proofs.Numeric.Value

/-!
# Operations on values

Sums, differences, products and quotients of finite doubles are what the exact
results round to, and finite doubles compare as their values do.
-/

namespace Extrusion
namespace Numeric
namespace Double

open Float.Model Float.Model.UnpackedFloat

theorem withSign_mul (a b : Bool) (p q : ℚ) :
    withSign a p * withSign b q = withSign (a ^^ b) (p * q) := by
  cases a <;> cases b <;> simp [withSign]

theorem withSign_div (a b : Bool) (p q : ℚ) :
    withSign a p / withSign b q = withSign (a ^^ b) (p / q) := by
  cases a <;> cases b <;> simp [withSign, neg_div, div_neg]

section

variable {x y : Float}

/-!
## Products and quotients
-/

theorem rounds_mul (hx : IsFinite x) (hy : IsFinite y) : Rounds (value x * value y) (x * y) := by
  rcases exists_value hx with ⟨a, m, e, hofFloat, hm, hvalue⟩
  rcases exists_value hy with ⟨b, n, f, hofFloat', hn, hvalue'⟩
  have hden : 0 < Nat.pow 2 (-(e + f)).toNat := Nat.pow_pos two_pos
  have hproduct := cast_mul_pow_div (m * n) two_pos (e + f)
  rw [mul_eq_nearest hofFloat hofFloat' hm hn hden hproduct, hvalue, hvalue', withSign_mul]
  have hexact : (m : ℚ) * (2 : ℚ) ^ e * (n * (2 : ℚ) ^ f) =
      (m * n * Nat.pow 2 (e + f).toNat : Nat) / (Nat.pow 2 (-(e + f)).toNat : Nat) := by
    rw [hproduct, Nat.cast_ofNat, zpow_add₀ two_ne_zero]
    push_cast
    ring
  rw [hexact]
  exact rounds_nearest _ _ hden

theorem rounds_div (hx : IsFinite x) (hy : IsFinite y) (hne : value y ≠ 0) :
    Rounds (value x / value y) (x / y) := by
  rcases exists_value hx with ⟨a, m, e, hofFloat, _, hvalue⟩
  rcases exists_value hy with ⟨b, n, f, hofFloat', _, hvalue'⟩
  have hn : 0 < n := by
    apply Nat.pos_of_ne_zero
    rintro rfl
    apply hne
    rw [hvalue', Nat.cast_zero, zero_mul]
    cases b <;> simp [withSign]
  have hn' : (n : ℚ) ≠ 0 := by exact_mod_cast hn.ne'
  have hden : 0 < n * Nat.pow 2 (-(e - f)).toNat := Nat.mul_pos hn (Nat.pow_pos two_pos)
  have hquotient : ((m * Nat.pow 2 (e - f).toNat : Nat) : ℚ) /
      (n * Nat.pow 2 (-(e - f)).toNat : Nat) = (m : ℚ) / n * (2 : ℚ) ^ (e - f) := by
    have hpower := cast_mul_pow_div m two_pos (e - f)
    rw [Nat.cast_mul n, mul_comm (n : ℚ), ← div_div, hpower, Nat.cast_ofNat]
    ring
  rw [div_eq_nearest hofFloat hofFloat' hn hden hquotient, hvalue, hvalue', withSign_div]
  have hexact : (m : ℚ) * (2 : ℚ) ^ e / (n * (2 : ℚ) ^ f) =
      (m * Nat.pow 2 (e - f).toNat : Nat) / (n * Nat.pow 2 (-(e - f)).toNat : Nat) := by
    rw [hquotient, zpow_sub₀ two_ne_zero]
    exact mul_div_mul_comm _ _ _ _
  rw [hexact]
  exact rounds_nearest _ _ hden

/-!
## Sums and differences
-/

def unpackedOf (negative : Bool) (m : Nat) (e : Int) : UnpackedFloat :=
  if hzero : m = 0 then .zero (signOf negative)
  else .finite (signOf negative) m e (Nat.pos_of_ne_zero hzero)

theorem unpack_eq_unpackedOf {negative : Bool} {m : Nat} {e : Int}
    (h : ofFloat x = .finite negative m e) : x.toModel.unpack = unpackedOf negative m e :=
  unpack_of_finite h

theorem unpackedOf_zero (negative : Bool) (e : Int) :
    unpackedOf negative 0 e = .zero (signOf negative) := rfl

theorem unpackedOf_of_pos (negative : Bool) {m : Nat} (e : Int) (hm : 0 < m) :
    unpackedOf negative m e = .finite (signOf negative) m e hm :=
  dif_neg hm.ne'

theorem ofFloat_of_unpackedOf {negative : Bool} {m : Nat} {e : Int} (hm : Decoded m e)
    (h : x.toBits.toNat = (UnpackedFloat.pack .binary64 (unpackedOf negative m e)).toNat) :
    ofFloat x = .finite negative m e := by
  have hlt := (magnitudeBits_of_decoded hm).2
  have hbits : x.toBits.toNat = cond negative (2 ^ 63) 0 + magnitudeBits m e := by
    rcases Nat.eq_zero_or_pos m with rfl | hpos
    · have hleast : e = -1074 := by
        rcases hm.leading with hleast | hleading
        · exact hleast
        · omega
      rw [h, unpackedOf_zero, toNat_pack_zero, toNat_signOf, hleast, magnitudeBits_zero]
      rfl
    · rw [h, unpackedOf_of_pos _ _ hpos, toNat_pack_finite _ hpos hm.precision hm.least hm.leading,
        toNat_signOf]
  have hassemble : x = assemble negative (magnitudeBits m e) := by
    apply eq_of_toBits
    apply UInt64.toNat_inj.mp
    rw [hbits, toNat_toBits_assemble negative hlt.le]
  rw [hassemble]
  exact ofFloat_assemble negative hm

theorem rounds_zero {negative : Bool}
    (h : x.toBits.toNat = (UnpackedFloat.pack .binary64 (.zero (signOf negative))).toNat) :
    Rounds 0 x := by
  refine ⟨negative, 0, 1, one_pos, ?_, eq_nearest_of_zero h⟩
  cases negative <;> simp [withSign]

theorem log2_shiftLeft {m : Nat} (hm : 0 < m) (k : Nat) : (m <<< k).log2 = m.log2 + k := by
  induction k with
  | zero => rfl
  | succ k ih =>
      have hpos : m <<< k ≠ 0 := by
        rw [Nat.shiftLeft_eq]
        positivity
      rw [Nat.shiftLeft_succ, Nat.log2_two_mul hpos, ih, Nat.add_assoc]

theorem rounds_round {negative : Bool} {m : Nat} {e : Int} (hm : 0 < m)
    (h : x.toBits.toNat =
      (UnpackedFloat.pack .binary64 (round .binary64 (signOf negative) m e)).toNat) :
    Rounds (withSign negative (m * (2 : ℚ) ^ e)) x := by
  obtain ⟨k, hk⟩ : ∃ k, k = (e - max (totalExponent m e - 53) (-1074)).toNat := ⟨_, rfl⟩
  have hlog := log2_shiftLeft hm k
  have hden : 0 < Nat.pow 2 (-e).toNat := Nat.pow_pos two_pos
  have hvalue := cast_mul_pow_div m two_pos e
  have hnearest : x = nearest negative (m * Nat.pow 2 e.toNat) (Nat.pow 2 (-e).toNat) := by
    refine eq_nearest_of_round (e := e - k) ?_ (represents_exact (m <<< k)) ?_ one_pos hden ?_ ?_ ?_
    · rw [h, hk]
      rfl
    · rw [Nat.shiftLeft_eq]
      positivity
    · rw [hlog]
      unfold totalExponent at hk
      omega
    · intro hzero
      rw [Nat.shiftLeft_eq] at hzero
      have : 0 < m * 2 ^ k := by positivity
      omega
    · rw [hvalue, Nat.shiftLeft_eq, Nat.cast_one, div_one, Nat.cast_ofNat]
      push_cast
      rw [mul_assoc, ← zpow_natCast, ← zpow_add₀ two_ne_zero, add_sub_cancel]
  rw [hnearest, show (m : ℚ) * (2 : ℚ) ^ e = _ from hvalue.symm]
  exact rounds_nearest _ _ hden

theorem rounds_normalize {m : Int} {e : Int}
    (h : x.toBits.toNat =
      (UnpackedFloat.pack .binary64 (UnpackedFloat.normalize .binary64 m e .positive)).toNat) :
    Rounds (m * (2 : ℚ) ^ e) x := by
  unfold UnpackedFloat.normalize at h
  rcases Int.lt_trichotomy m 0 with hneg | rfl | hpos
  · rw [Int.compare_eq_lt.mpr hneg] at h
    have hround : Rounds (withSign true ((-m).toNat * (2 : ℚ) ^ e)) x :=
      rounds_round (by omega) h
    have hcast : (((-m).toNat : Nat) : ℚ) = -(m : ℚ) := by
      exact_mod_cast congrArg (Int.cast : Int → ℚ) (Int.toNat_of_nonneg (by omega : 0 ≤ -m))
    rw [hcast] at hround
    have hvalue : withSign true (-(m : ℚ) * (2 : ℚ) ^ e) = m * (2 : ℚ) ^ e := by
      show -(-(m : ℚ) * (2 : ℚ) ^ e) = _
      ring
    rwa [hvalue] at hround
  · rw [Int.compare_eq_eq.mpr rfl] at h
    rw [Int.cast_zero, zero_mul]
    exact @rounds_zero _ false h
  · rw [Int.compare_eq_gt.mpr hpos] at h
    have hround : Rounds (withSign false (m.toNat * (2 : ℚ) ^ e)) x :=
      rounds_round (by omega) h
    have hcast : ((m.toNat : Nat) : ℚ) = m := by
      exact_mod_cast congrArg (Int.cast : Int → ℚ) (Int.toNat_of_nonneg hpos.le)
    rwa [hcast] at hround

theorem cast_apply_shiftLeft (negative : Bool) (m : Nat) (e least : Int) (h : least ≤ e) :
    (((signOf negative).apply (m <<< (e - least).toNat : Nat) : Int) : ℚ) * (2 : ℚ) ^ least =
      withSign negative (m * (2 : ℚ) ^ e) := by
  have hshift : ((m <<< (e - least).toNat : Nat) : ℚ) * (2 : ℚ) ^ least = m * (2 : ℚ) ^ e := by
    rw [Nat.shiftLeft_eq]
    push_cast
    rw [mul_assoc, ← zpow_natCast, ← zpow_add₀ two_ne_zero]
    congr 2
    omega
  cases negative
  · show (((m <<< (e - least).toNat : Nat) : Int) : ℚ) * _ = _
    rw [Int.cast_natCast]
    exact hshift
  · show ((-((m <<< (e - least).toNat : Nat) : Int) : Int) : ℚ) * _ = -_
    rw [Int.cast_neg, Int.cast_natCast, neg_mul, hshift]

theorem value_of_zero {negative : Bool} {e : Int} (h : ofFloat x = .finite negative 0 e) :
    value x = 0 := by
  rw [value_of_ofFloat h, Nat.cast_zero, zero_mul]
  cases negative
  · rfl
  · exact neg_zero

theorem rounds_of_unpackedOf {negative : Bool} {m : Nat} {e : Int} (hm : Decoded m e)
    (h : x.toBits.toNat = (UnpackedFloat.pack .binary64 (unpackedOf negative m e)).toNat) :
    Rounds (withSign negative (m * (2 : ℚ) ^ e)) x := by
  have hofFloat := ofFloat_of_unpackedOf hm h
  rw [← value_of_ofFloat hofFloat]
  exact rounds_value (isFinite_of_ofFloat hofFloat)

theorem rounds_add (hx : IsFinite x) (hy : IsFinite y) : Rounds (value x + value y) (x + y) := by
  rcases exists_value hx with ⟨a, m, e, hofFloat, hm, hvalue⟩
  rcases exists_value hy with ⟨b, n, f, hofFloat', hn, hvalue'⟩
  have hbits : (x + y).toBits.toNat = (UnpackedFloat.pack .binary64
      (UnpackedFloat.add .binary64 x.toModel.unpack y.toModel.unpack)).toNat := rfl
  rw [unpack_eq_unpackedOf hofFloat, unpack_eq_unpackedOf hofFloat'] at hbits
  rcases Nat.eq_zero_or_pos m with rfl | hpos
  · rw [value_of_zero hofFloat, Rat.zero_add]
    rcases Nat.eq_zero_or_pos n with rfl | hpos'
    · rw [value_of_zero hofFloat']
      apply @rounds_zero _ (a && b)
      rw [hbits, unpackedOf_zero, unpackedOf_zero]
      cases a <;> cases b <;> rfl
    · rw [hvalue']
      apply rounds_of_unpackedOf hn
      rw [hbits, unpackedOf_zero, unpackedOf_of_pos _ _ hpos']
      rfl
  · rcases Nat.eq_zero_or_pos n with rfl | hpos'
    · rw [value_of_zero hofFloat', Rat.add_zero, hvalue]
      apply rounds_of_unpackedOf hm
      rw [hbits, unpackedOf_zero, unpackedOf_of_pos _ _ hpos]
      rfl
    · rw [unpackedOf_of_pos _ _ hpos, unpackedOf_of_pos _ _ hpos'] at hbits
      have hsum := rounds_normalize hbits
      rw [Int.cast_add, add_mul] at hsum
      have hleft := cast_apply_shiftLeft a m e (min e f) (min_le_left e f)
      have hright := cast_apply_shiftLeft b n f (min e f) (min_le_right e f)
      rw [hvalue, hvalue', ← hleft, ← hright]
      exact hsum

/-!
## Signs
-/

theorem ofFloat_neg {negative : Bool} {m : Nat} {e : Int} (h : ofFloat x = .finite negative m e)
    (hm : Decoded m e) : ofFloat (-x) = .finite (!negative) m e := by
  have hbits : (-x).toBits.toNat =
      (UnpackedFloat.pack .binary64 (UnpackedFloat.neg x.toModel.unpack)).toNat := rfl
  apply ofFloat_of_unpackedOf hm
  rw [hbits, unpack_eq_unpackedOf h]
  rcases Nat.eq_zero_or_pos m with rfl | hpos
  · cases negative <;> rfl
  · rw [unpackedOf_of_pos _ _ hpos, unpackedOf_of_pos _ _ hpos]
    cases negative <;> rfl

theorem ofFloat_abs {negative : Bool} {m : Nat} {e : Int} (h : ofFloat x = .finite negative m e)
    (hm : Decoded m e) : ofFloat x.abs = .finite false m e := by
  have hbits : x.abs.toBits.toNat =
      (UnpackedFloat.pack .binary64 (UnpackedFloat.abs x.toModel.unpack)).toNat := rfl
  apply ofFloat_of_unpackedOf hm
  rw [hbits, unpack_eq_unpackedOf h]
  rcases Nat.eq_zero_or_pos m with rfl | hpos
  · rfl
  · rw [unpackedOf_of_pos _ _ hpos, unpackedOf_of_pos _ _ hpos]
    rfl

theorem isFinite_neg (hx : IsFinite x) : IsFinite (-x) := by
  rcases exists_value hx with ⟨negative, m, e, hofFloat, hm, _⟩
  exact isFinite_of_ofFloat (ofFloat_neg hofFloat hm)

theorem value_neg (hx : IsFinite x) : value (-x) = -value x := by
  rcases exists_value hx with ⟨negative, m, e, hofFloat, hm, hvalue⟩
  rw [value_of_ofFloat (ofFloat_neg hofFloat hm), hvalue]
  cases negative
  · rfl
  · exact (neg_neg _).symm

theorem isFinite_abs (hx : IsFinite x) : IsFinite x.abs := by
  rcases exists_value hx with ⟨negative, m, e, hofFloat, hm, _⟩
  exact isFinite_of_ofFloat (ofFloat_abs hofFloat hm)

theorem value_abs (hx : IsFinite x) : value x.abs = |value x| := by
  rcases exists_value hx with ⟨negative, m, e, hofFloat, hm, hvalue⟩
  rw [value_of_ofFloat (ofFloat_abs hofFloat hm), hvalue, abs_withSign,
    abs_of_nonneg (by positivity)]
  rfl

theorem unpackedFloat_sub_eq (u v : UnpackedFloat) :
    UnpackedFloat.sub .binary64 u v = UnpackedFloat.add .binary64 u v.neg := by
  cases u with
  | notANumber => rfl
  | infinity s => cases v <;> rfl
  | zero s => cases v <;> rfl
  | finite s m e hm =>
      cases v with
      | notANumber => rfl
      | infinity t => rfl
      | zero t => rfl
      | finite t n f hn =>
          cases t with
          | positive => rfl
          | negative =>
              exact congrArg (UnpackedFloat.normalize .binary64 · (min e f) .positive)
                (Int.sub_neg _ _)

theorem sub_eq_add_neg (hy : IsFinite y) : x - y = x + -y := by
  rcases exists_value hy with ⟨negative, m, e, hofFloat, hm, _⟩
  have hneg : (-y).toModel.unpack = UnpackedFloat.neg y.toModel.unpack := by
    rw [unpack_eq_unpackedOf (ofFloat_neg hofFloat hm), unpack_eq_unpackedOf hofFloat]
    rcases Nat.eq_zero_or_pos m with rfl | hpos
    · cases negative <;> rfl
    · rw [unpackedOf_of_pos _ _ hpos, unpackedOf_of_pos _ _ hpos]
      cases negative <;> rfl
  have hsub : (x - y).toBits = UInt64.ofBitVec (UnpackedFloat.pack .binary64
      (UnpackedFloat.sub .binary64 x.toModel.unpack y.toModel.unpack)) := rfl
  have hadd : (x + -y).toBits = UInt64.ofBitVec (UnpackedFloat.pack .binary64
      (UnpackedFloat.add .binary64 x.toModel.unpack (-y).toModel.unpack)) := rfl
  apply eq_of_toBits
  rw [hsub, hadd, hneg, unpackedFloat_sub_eq]

theorem rounds_sub (hx : IsFinite x) (hy : IsFinite y) : Rounds (value x - value y) (x - y) := by
  have hsum := rounds_add hx (isFinite_neg hy)
  rw [value_neg hy] at hsum
  rw [sub_eq_add_neg hy, Rat.sub_eq_add_neg]
  exact hsum

end

end Double
end Numeric
end Extrusion
