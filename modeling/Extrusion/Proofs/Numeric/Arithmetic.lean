import Mathlib
import Extrusion.Proofs.Numeric.Significand

/-!
# Products and quotients of doubles

The product and the quotient of two finite doubles are the doubles nearest to
the exact ones.  One is neutral for products, and zero for sums up to the sign
of a zero.
-/

namespace Extrusion
namespace Numeric
namespace Double

open Float.Model Float.Model.UnpackedFloat

/-!
## Nearest doubles
-/

def signOf (negative : Bool) : Sign := cond negative .negative .positive

theorem toNat_signOf (negative : Bool) :
    (signOf negative).toBitVec.toNat * 2 ^ 63 = cond negative (2 ^ 63) 0 := by
  cases negative <;> rfl

theorem signOf_mul (a b : Bool) : signOf a * signOf b = signOf (a ^^ b) := by
  cases a <;> cases b <;> rfl

theorem signOf_div (a b : Bool) : signOf a / signOf b = signOf (a ^^ b) := by
  cases a <;> cases b <;> rfl

theorem magnitudeBits_le (m : Nat) (e : Int) : magnitudeBits m e ≤ infinityBits :=
  Nat.min_le_right _ _

theorem magnitudeBits_zero : magnitudeBits 0 (-1074) = 0 := rfl

theorem eq_nearest {x : Float} {negative : Bool} {num den : Nat}
    (h : x.toBits.toNat = cond negative (2 ^ 63) 0 +
      magnitudeBits (BinaryFormat.double.round num den).1
        (BinaryFormat.double.round num den).2) : x = nearest negative num den := by
  apply eq_of_toBits
  apply UInt64.toNat_inj.mp
  rw [h, nearest_eq, toNat_toBits_assemble negative (magnitudeBits_le _ _)]

/-- The exponent for a value is read off its integral part at a small one. -/
theorem exponentFor_of_floor {num den n d m : Nat} {e : Int} (hnum : 0 < num) (hden : 0 < den)
    (hd : 0 < d) (hfloor : m = num / den) (hlow : m = 0 → e ≤ -1074)
    (hvalue : (n : ℚ) / d = (num : ℚ) / den * (2 : ℚ) ^ e) :
    BinaryFormat.double.exponentFor n d = max ((m.log2 : Int) + 1 + e - 53) (-1074) := by
  have hden' : (0 : ℚ) < den := by exact_mod_cast hden
  have hpos : (0 : ℚ) < (n : ℚ) / d := by
    rw [hvalue]
    positivity
  have hn : 0 < n := by
    apply Nat.pos_of_ne_zero
    rintro rfl
    rw [Nat.cast_zero, zero_div] at hpos
    exact lt_irrefl _ hpos
  have hbelow : (num : ℚ) / den < (m : ℚ) + 1 := by
    rw [div_lt_iff₀ hden']
    have h := Nat.lt_mul_div_succ num hden
    rw [← hfloor, Nat.mul_comm] at h
    exact_mod_cast h
  rw [BinaryFormat.exponentFor_eq hn hd]
  show max (-1074) (Int.log 2 ((n : ℚ) / d) - 53 + 1) = _
  rcases Nat.eq_zero_or_pos m with hm | hm
  · -- The value is below the least exponent.
    have hlog : Int.log 2 ((n : ℚ) / d) < e := by
      rw [← Int.lt_zpow_iff_log_lt one_lt_two hpos, hvalue]
      rw [hm, Nat.cast_zero, zero_add] at hbelow
      exact mul_lt_of_lt_one_left (by positivity) hbelow
    have hsmall := hlow hm
    rw [hm, Nat.log2_zero]
    omega
  · have habove : (m : ℚ) ≤ (num : ℚ) / den := by
      rw [le_div_iff₀ hden', hfloor]
      exact_mod_cast Nat.div_mul_le_self num den
    have hlog_low : (2 : ℚ) ^ m.log2 ≤ m := by exact_mod_cast Nat.log2_self_le hm.ne'
    have hlog_high : (m : ℚ) + 1 ≤ 2 ^ (m.log2 + 1) := by exact_mod_cast Nat.lt_log2_self
    have hle : (m.log2 : Int) + e ≤ Int.log 2 ((n : ℚ) / d) := by
      rw [← Int.zpow_le_iff_le_log one_lt_two hpos, hvalue, Nat.cast_ofNat,
        zpow_add₀ two_ne_zero, zpow_natCast]
      gcongr
      exact hlog_low.trans habove
    have hlt : Int.log 2 ((n : ℚ) / d) < (m.log2 : Int) + 1 + e := by
      rw [← Int.lt_zpow_iff_log_lt one_lt_two hpos, hvalue, Nat.cast_ofNat,
        zpow_add₀ two_ne_zero]
      gcongr
      exact_mod_cast hbelow.trans_le hlog_high
    omega

/-- Rounding in the unpacked form gives the nearest double to the number that
the significand and its accuracy stand for. -/
theorem round_eq_roundDiv {num den n d m : Nat} {e E : Int} (hnum : 0 < num) (hden : 0 < den)
    (hd : 0 < d) (hfloor : m = num / den) (hE : E = max ((m.log2 : Int) + 1 + e - 53) (-1074))
    (hle : e ≤ E) (hlow : m = 0 → e ≤ -1074)
    (hvalue : (n : ℚ) / d = (num : ℚ) / den * (2 : ℚ) ^ e) :
    BinaryFormat.double.round n d = (roundDiv .toEven num (den * 2 ^ (E - e).toNat), E) := by
  have hn : n ≠ 0 := by
    rintro rfl
    have hpos : (0 : ℚ) < (num : ℚ) / den * (2 : ℚ) ^ e := by positivity
    rw [← hvalue, Nat.cast_zero, zero_div] at hpos
    exact lt_irrefl _ hpos
  have hexponent : BinaryFormat.double.exponentFor n d = E :=
    (exponentFor_of_floor hnum hden hd hfloor hlow hvalue).trans hE.symm
  have hscaled : ((scaleDown 2 n d E).1 : ℚ) / (scaleDown 2 n d E).2 =
      (num : ℚ) / (den * 2 ^ (E - e).toNat : Nat) := by
    obtain ⟨k, rfl⟩ : ∃ k : Nat, E = e + k := ⟨(E - e).toNat, by omega⟩
    rw [cast_scaleDown two_pos, hvalue, add_sub_cancel_left, Int.toNat_natCast, Nat.cast_ofNat,
      zpow_add₀ two_ne_zero, zpow_natCast]
    push_cast
    field_simp
  have hpos := scaleDown_den_pos two_pos hd n E
  rw [BinaryFormat.round_of_ne_zero hn, hexponent]
  congr 1
  exact roundDiv_congr _ hpos (by positivity)
    (mul_eq_mul_of_div_eq hpos (by positivity) hscaled)

/-!
## Products and quotients
-/

theorem isFinite_of_ofFloat {x : Float} {negative : Bool} {m : Nat} {e : Int}
    (h : ofFloat x = .finite negative m e) : IsFinite x := by
  by_contra hx
  have hofFloat : ofFloat x = if x.toBits.toNat % 2 ^ 63 = infinityBits
      then .infinite (decide (2 ^ 63 ≤ x.toBits.toNat)) else .nan := if_neg hx
  rw [hofFloat] at h
  split at h <;> cases h

theorem unpack_of_finite {x : Float} {negative : Bool} {m : Nat} {e : Int}
    (h : ofFloat x = .finite negative m e) :
    x.toModel.unpack =
      if hzero : m = 0 then .zero (signOf negative)
      else .finite (signOf negative) m e (Nat.pos_of_ne_zero hzero) := by
  have hfinite : x.toBits.toNat % 2 ^ 63 < infinityBits := isFinite_of_ofFloat h
  have hofFloat : ofFloat x = .finite (decide (2 ^ 63 ≤ x.toBits.toNat))
      (ofMagnitudeBits (x.toBits.toNat % 2 ^ 63)).1 (ofMagnitudeBits (x.toBits.toNat % 2 ^ 63)).2 :=
    ofBits_of_lt hfinite
  rw [hofFloat, ofMagnitudeBits_eq] at h
  rw [infinityBits_eq] at hfinite
  have hu : Unpacked x.toBits.toBitVec x.toModel.unpack := unpacked x.toBits.toBitVec
  have hlt := x.toBits.toNat_lt
  have hmantissa := toNat_mantissaField x.toBits.toBitVec
  have hexponent := toNat_exponentField x.toBits.toBitVec
  have hsign := signField_eq x.toBits.toBitVec
  rw [UInt64.toNat_toBitVec] at hmantissa hexponent hsign
  generalize x.toBits.toBitVec = b at hu hmantissa hexponent hsign
  generalize x.toBits.toNat = bits at h hfinite hlt hmantissa hexponent hsign
  have hnegative : signField b = signOf (decide (2 ^ 63 ≤ bits)) := by
    rw [hsign]
    by_cases hneg : bits < 2 ^ 63
    · rw [if_pos hneg, decide_eq_false (by omega)]
      rfl
    · rw [if_neg hneg, decide_eq_true (by omega)]
      rfl
  generalize x.toModel.unpack = u at hu
  cases hu with
  | infinity htop hnone =>
      have htop' := exponentField_eq_top_iff.mp htop
      omega
  | nan htop hsome =>
      have htop' := exponentField_eq_top_iff.mp htop
      omega
  | zero hleast hnone =>
      have hleast' := exponentField_eq_zero_iff.mp hleast
      have hnone' := mantissaField_eq_zero_iff.mp hnone
      rw [if_pos (by omega)] at h
      cases h
      rw [dif_pos (by omega), hnegative]
  | subnormal hleast hpos =>
      have hleast' := exponentField_eq_zero_iff.mp hleast
      rw [if_pos (by omega)] at h
      cases h
      have hm : bits % 2 ^ 63 = (mantissaField b).toNat := by omega
      rw [dif_neg (by omega), hnegative]
      simp only [hm]
  | normal hleast htop hpos =>
      have hleast' := mt exponentField_eq_zero_iff.mpr hleast
      rw [if_neg (by omega)] at h
      cases h
      have hm : bits % 2 ^ 63 % 2 ^ 52 + 2 ^ 52 = 2 ^ 52 + (mantissaField b).toNat := by omega
      have he : bits % 2 ^ 63 / 2 ^ 52 = (exponentField b).toNat := by omega
      rw [dif_neg (by omega), hnegative]
      simp only [hm, he]

theorem eq_nearest_of_zero {x : Float} {negative : Bool} {den : Nat}
    (h : x.toBits.toNat = (UnpackedFloat.pack .binary64 (.zero (signOf negative))).toNat) :
    x = nearest negative 0 den := by
  have hround : BinaryFormat.double.round 0 den = (0, -1074) := rfl
  apply eq_nearest
  rw [h, hround, magnitudeBits_zero, toNat_pack_zero, toNat_signOf, Nat.add_zero]

theorem eq_nearest_of_round {x : Float} {negative : Bool} {num den n d m : Nat} {e : Int}
    {acc : Accuracy}
    (h : x.toBits.toNat =
      (UnpackedFloat.pack .binary64 (roundWithAccuracy .binary64 (signOf negative) m e acc)).toNat)
    (hrepresents : Represents (.ofMantissaAndAccuracy m acc) num den) (hnum : 0 < num)
    (hden : 0 < den) (hd : 0 < d) (hle : e ≤ max ((m.log2 : Int) + 1 + e - 53) (-1074))
    (hlow : m = 0 → e ≤ -1074) (hvalue : (n : ℚ) / d = (num : ℚ) / den * (2 : ℚ) ^ e) :
    x = nearest negative n d := by
  apply eq_nearest
  rw [h, toNat_pack_roundWithAccuracy _ hden hrepresents rfl hle, toNat_signOf,
    round_eq_roundDiv hnum hden hd hrepresents.floor rfl hle hlow hvalue]

section

variable {x y : Float} {a b : Bool} {m n num den : Nat} {e f : Int}

theorem Decoded.leading_mul (hm : Decoded m e) (hn : Decoded n f) (hmn : m * n ≠ 0) :
    52 ≤ (m * n).log2 ∨ e + f ≤ -1074 := by
  have hm_le : m ≤ m * n := Nat.le_mul_of_pos_right m (Nat.pos_of_ne_zero (right_ne_zero_of_mul hmn))
  have hn_le : n ≤ m * n := Nat.le_mul_of_pos_left n (Nat.pos_of_ne_zero (left_ne_zero_of_mul hmn))
  rcases hm.leading with hleast | hleading
  · rcases hn.leading with hleast' | hleading
    · right
      omega
    · exact Or.inl ((Nat.le_log2 hmn).mpr (hleading.trans hn_le))
  · exact Or.inl ((Nat.le_log2 hmn).mpr (hleading.trans hm_le))

theorem mul_eq_nearest (hx : ofFloat x = .finite a m e) (hy : ofFloat y = .finite b n f)
    (hm : Decoded m e) (hn : Decoded n f) (hden : 0 < den)
    (hvalue : (num : ℚ) / den = (m * n : Nat) * (2 : ℚ) ^ (e + f)) :
    x * y = nearest (a ^^ b) num den := by
  have hbits : (x * y).toBits.toNat = (UnpackedFloat.pack .binary64
      (UnpackedFloat.mul .binary64 x.toModel.unpack y.toModel.unpack)).toNat := rfl
  rw [unpack_of_finite hx, unpack_of_finite hy] at hbits
  by_cases hzero : m * n = 0
  · have hnum : num = 0 := by
      have hden_ne : (den : ℚ) ≠ 0 := by exact_mod_cast hden.ne'
      rw [hzero, Nat.cast_zero, zero_mul, div_eq_zero_iff] at hvalue
      exact_mod_cast hvalue.resolve_right hden_ne
    rw [hnum]
    apply eq_nearest_of_zero
    rw [hbits, ← signOf_mul]
    rcases Nat.mul_eq_zero.mp hzero with rfl | rfl
    · rw [dif_pos rfl]
      split <;> rfl
    · rw [dif_pos rfl]
      split <;> rfl
  · have hleading := hm.leading_mul hn hzero
    rw [dif_neg (left_ne_zero_of_mul hzero), dif_neg (right_ne_zero_of_mul hzero)] at hbits
    refine eq_nearest_of_round (e := e + f) ?_
      (represents_exact (m * n)) (Nat.pos_of_ne_zero hzero) one_pos hden (by omega) (by omega) ?_
    · rw [hbits, ← signOf_mul]
      rfl
    · rw [hvalue, Nat.cast_one, div_one]

/-- A quotient is cut off below the last bit that the format has. -/
theorem leading_div {t : Int} (hm : m ≠ 0) (hn : n ≠ 0)
    (ht : t = min (e - f) (max (totalExponent m e - totalExponent n f - 53) (-1074))) :
    52 ≤ (m <<< (e - f - t).toNat / n).log2 ∨ t ≤ -1074 := by
  by_cases hleast : t ≤ -1074
  · exact Or.inr hleast
  · left
    unfold totalExponent at ht
    have hexponent : n.log2 + 1 + 52 ≤ m.log2 + (e - f - t).toNat := by omega
    have hquotient : 2 ^ 52 ≤ m <<< (e - f - t).toNat / n := by
      rw [Nat.le_div_iff_mul_le (Nat.pos_of_ne_zero hn), Nat.shiftLeft_eq]
      calc 2 ^ 52 * n ≤ 2 ^ 52 * 2 ^ (n.log2 + 1) := Nat.mul_le_mul_left _ Nat.lt_log2_self.le
        _ = 2 ^ (n.log2 + 1 + 52) := by rw [← pow_add, Nat.add_comm]
        _ ≤ 2 ^ (m.log2 + (e - f - t).toNat) := Nat.pow_le_pow_right two_pos hexponent
        _ = 2 ^ m.log2 * 2 ^ (e - f - t).toNat := pow_add _ _ _
        _ ≤ m * 2 ^ (e - f - t).toNat := Nat.mul_le_mul_right _ (Nat.log2_self_le hm)
    exact (Nat.le_log2 (by omega)).mpr hquotient

theorem div_eq_nearest (hx : ofFloat x = .finite a m e) (hy : ofFloat y = .finite b n f)
    (hn : 0 < n) (hden : 0 < den)
    (hvalue : (num : ℚ) / den = (m : ℚ) / n * (2 : ℚ) ^ (e - f)) :
    x / y = nearest (a ^^ b) num den := by
  have hbits : (x / y).toBits.toNat = (UnpackedFloat.pack .binary64
      (UnpackedFloat.div .binary64 x.toModel.unpack y.toModel.unpack)).toNat := rfl
  rw [unpack_of_finite hx, unpack_of_finite hy, dif_neg hn.ne'] at hbits
  by_cases hzero : m = 0
  · have hnum : num = 0 := by
      have hden_ne : (den : ℚ) ≠ 0 := by exact_mod_cast hden.ne'
      rw [hzero, Nat.cast_zero, zero_div, zero_mul, div_eq_zero_iff] at hvalue
      exact_mod_cast hvalue.resolve_right hden_ne
    rw [hnum]
    apply eq_nearest_of_zero
    rw [hbits, dif_pos hzero, ← signOf_div]
    rfl
  · rw [dif_neg hzero] at hbits
    obtain ⟨t, ht⟩ : ∃ t, t = min (e - f) (max (totalExponent m e - totalExponent n f - 53) (-1074)) :=
      ⟨_, rfl⟩
    have hleading := leading_div hzero hn.ne' ht
    refine eq_nearest_of_round (e := t) ?_ (represents_fraction (m <<< (e - f - t).toNat) hn)
      ?_ hn hden ?_ ?_ ?_
    · rw [hbits, ← signOf_div, ht]
      rfl
    · rw [Nat.shiftLeft_eq]
      positivity
    · omega
    · intro hnone
      rw [hnone, Nat.log2_zero] at hleading
      omega
    · have hshift : (2 : ℚ) ^ (e - f - t).toNat * 2 ^ t = 2 ^ (e - f) := by
        rw [← zpow_natCast, ← zpow_add₀ two_ne_zero]
        congr 1
        omega
      rw [hvalue, Nat.shiftLeft_eq, ← hshift]
      push_cast
      ring

end

/-!
## Encoding and decoding
-/

theorem magnitudeBits_of_decoded {m : Nat} {e : Int} (h : Decoded m e) :
    magnitudeBits m e = (e + 1074).toNat * 2 ^ 52 + m ∧ magnitudeBits m e < infinityBits := by
  have hprecision := h.precision
  have hleast := h.least
  have hgreatest := h.greatest
  rw [magnitudeBits_eq, infinityBits_eq]
  omega

theorem ofMagnitudeBits_magnitudeBits {m : Nat} {e : Int} (h : Decoded m e) :
    ofMagnitudeBits (magnitudeBits m e) = (m, e) := by
  have hprecision := h.precision
  have hleast := h.least
  rw [(magnitudeBits_of_decoded h).1, ofMagnitudeBits_eq]
  rcases h.leading with hsubnormal | hleading
  · split
    · rw [Prod.mk.injEq]
      omega
    · rw [Prod.mk.injEq]
      omega
  · rw [if_neg (by omega), Prod.mk.injEq]
    omega

theorem ofFloat_assemble (negative : Bool) {m : Nat} {e : Int} (h : Decoded m e) :
    ofFloat (assemble negative (magnitudeBits m e)) = .finite negative m e := by
  have hlt := (magnitudeBits_of_decoded h).2
  have hbits := toNat_toBits_assemble negative hlt.le
  have hmagnitude : (cond negative (2 ^ 63) 0 + magnitudeBits m e) % 2 ^ 63 =
      magnitudeBits m e := by
    rw [infinityBits_eq] at hlt
    cases negative <;> simp only [cond_true, cond_false] <;> omega
  have hnegative : decide (2 ^ 63 ≤ cond negative (2 ^ 63) 0 + magnitudeBits m e) = negative := by
    rw [infinityBits_eq] at hlt
    cases negative
    · exact decide_eq_false (by rw [cond_false]; omega)
    · exact decide_eq_true (by rw [cond_true]; omega)
  unfold ofFloat
  rw [hbits, ofBits_of_lt (by rw [hmagnitude]; exact hlt), hmagnitude, hnegative,
    ofMagnitudeBits_magnitudeBits h]

theorem nearest_of_value (negative : Bool) {num den m : Nat} {e : Int} (hden : 0 < den)
    (hm : Decoded m e) (h : (num : ℚ) / den = m * (2 : ℚ) ^ e) :
    nearest negative num den = assemble negative (magnitudeBits m e) := by
  rcases Nat.eq_zero_or_pos m with rfl | hpos
  · have hden_ne : (den : ℚ) ≠ 0 := by exact_mod_cast hden.ne'
    rw [Nat.cast_zero, zero_mul, div_eq_zero_iff] at h
    have hnum : num = 0 := by exact_mod_cast h.resolve_right hden_ne
    have hleast : e = -1074 := by
      rcases hm.leading with hleast | hleading
      · exact hleast
      · omega
    have hround : BinaryFormat.double.round 0 den = (0, -1074) := rfl
    rw [hnum, nearest_eq, hround, hleast]
  · exact nearest_of_decoded negative hden hm hpos h

/-!
## One
-/

theorem ofFloat_one : ofFloat 1 = .finite false (2 ^ 52) (-52) := by
  decide +kernel

theorem mul_one_of_isFinite {x : Float} (hx : IsFinite x) : x * 1 = x := by
  rcases exists_ofFloat hx with ⟨negative, m, e, hofFloat, hm, hassemble⟩
  have hone : Decoded (2 ^ 52) (-52) := ⟨by norm_num, by norm_num, by norm_num, Or.inr le_rfl⟩
  have hvalue := cast_mul_pow_div m two_pos e
  have hproduct : ((m * 2 ^ 52 : Nat) : ℚ) * (2 : ℚ) ^ (e + -52) = m * 2 ^ e := by
    rw [zpow_add₀ two_ne_zero]
    push_cast
    field_simp
    norm_num
  have hden : 0 < Nat.pow 2 (-e).toNat := Nat.pow_pos two_pos
  rw [mul_eq_nearest hofFloat ofFloat_one hm hone hden
      (hvalue.trans (by exact_mod_cast hproduct.symm)),
    Bool.xor_false, nearest_of_value negative hden hm (by exact_mod_cast hvalue), hassemble]

theorem unpack_mul_one_of_not_isFinite {x : Float} (hx : ¬ IsFinite x) :
    UnpackedFloat.mul .binary64 x.toModel.unpack (1 : Float).toModel.unpack =
      x.toModel.unpack := by
  rw [unpack_of_finite ofFloat_one]
  have hu : Unpacked x.toBits.toBitVec x.toModel.unpack := unpacked x.toBits.toBitVec
  have hexponent := toNat_exponentField x.toBits.toBitVec
  rw [UInt64.toNat_toBitVec] at hexponent
  have htop : (exponentField x.toBits.toBitVec).toNat = 2047 := by
    have hlt := x.toBits.toNat_lt
    unfold IsFinite at hx
    rw [infinityBits_eq] at hx
    omega
  generalize x.toBits.toBitVec = b at hu htop
  generalize x.toModel.unpack = u at hu
  cases hu with
  | infinity _ _ => cases signField b <;> rfl
  | nan _ _ => rfl
  | zero hleast _ =>
      rw [hleast] at htop
      cases htop
  | subnormal hleast _ =>
      rw [hleast] at htop
      cases htop
  | normal _ hnot _ => exact absurd (BitVec.eq_of_toNat_eq htop) hnot

theorem mul_one (x : Float) : x * 1 = x := by
  by_cases hx : IsFinite x
  · exact mul_one_of_isFinite hx
  · apply eq_of_toBits
    have hbits : (x * 1).toBits = UInt64.ofBitVec (UnpackedFloat.pack .binary64
        (UnpackedFloat.mul .binary64 x.toModel.unpack (1 : Float).toModel.unpack)) := rfl
    rw [hbits, unpack_mul_one_of_not_isFinite hx]
    exact congrArg UInt64.ofBitVec (pack_unpack x.toModel.valid)

/-!
## Zero
-/

theorem ofFloat_zero : ofFloat 0 = .finite false 0 (-1074) := by
  decide +kernel

theorem ofFloat_neg_zero : ofFloat (-0) = .finite true 0 (-1074) := by
  decide +kernel

/-- Zero is neutral for sums, but it takes the sign from a negative zero. -/
theorem add_zero (x : Float) : x + 0 = x ∨ x = -0 := by
  have hbits := toNat_toBits_add_zero x
  by_cases hzero : x.toBits.toNat % 2 ^ 63 = 0
  · have hlt := x.toBits.toNat_lt
    rw [if_pos hzero] at hbits
    by_cases hsign : x.toBits.toNat = 0
    · left
      apply eq_of_toBits
      exact UInt64.toNat_inj.mp (hbits.trans hsign.symm)
    · right
      apply eq_of_toBits
      have hnegative : (-0 : Float).toBits.toNat = 2 ^ 63 := by decide +kernel
      exact UInt64.toNat_inj.mp (by omega)
  · rw [if_neg hzero] at hbits
    exact Or.inl (eq_of_toBits (UInt64.toNat_inj.mp hbits))

/-- The sign of a zero counts only where another zero is taken from it. -/
theorem zero_sub (x : Float) : 0 - x = -0 - x ∨ x = 0 ∨ x = -0 := by
  have hbits (y : Float) : (y - x).toBits = UInt64.ofBitVec (UnpackedFloat.pack .binary64
      (UnpackedFloat.sub .binary64 y.toModel.unpack x.toModel.unpack)) := rfl
  have hself : UnpackedFloat.pack .binary64 x.toModel.unpack = x.toBits.toBitVec :=
    pack_unpack x.toModel.valid
  have hzero := unpack_of_finite ofFloat_zero
  have hnegative := unpack_of_finite ofFloat_neg_zero
  rw [dif_pos rfl] at hzero hnegative
  have hsame (hu : UnpackedFloat.sub .binary64 (.zero .positive) x.toModel.unpack =
      UnpackedFloat.sub .binary64 (.zero .negative) x.toModel.unpack) : 0 - x = -0 - x := by
    apply eq_of_toBits
    rw [hbits, hbits, hzero, hnegative]
    exact congrArg (fun u => UInt64.ofBitVec (UnpackedFloat.pack .binary64 u)) hu
  generalize x.toModel.unpack = u at hself hsame
  cases u with
  | zero s =>
      right
      cases s with
      | positive => exact Or.inl (eq_of_toBits (congrArg UInt64.ofBitVec hself.symm))
      | negative => exact Or.inr (eq_of_toBits (congrArg UInt64.ofBitVec hself.symm))
  | infinity s => exact Or.inl (hsame rfl)
  | notANumber => exact Or.inl (hsame rfl)
  | finite s m e hm => exact Or.inl (hsame rfl)

end Double
end Numeric
end Extrusion
