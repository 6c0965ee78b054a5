import Mathlib
import Extrusion.Scalar

/-!
# Order of doubles

The comparisons of doubles are read off their bits.  A double that is a number
has a signed magnitude, and numbers compare as their signed magnitudes do; the
two zeros share one.  Adding zero takes the sign off a negative zero and leaves
the bits of every other double alone, so ranks after adding zero order numbers
as `<` does.
-/

namespace Extrusion
namespace Numeric
namespace Double

open Float.Model Float.Model.UnpackedFloat

/-!
# Fields
-/

def signField (b : BitVec 64) : Sign :=
  Sign.ofBitVec (@unpackSign .binary64 b)

def exponentField (b : BitVec 64) : BitVec 11 :=
  @unpackExponent .binary64 b

def mantissaField (b : BitVec 64) : BitVec 52 :=
  @unpackMantissa .binary64 b

theorem toNat_mantissaField (b : BitVec 64) :
    (mantissaField b).toNat = b.toNat % 2 ^ 52 := by
  simp [mantissaField, unpackMantissa, BitVec.extractLsb, BitVec.extractLsb']

theorem toNat_exponentField (b : BitVec 64) :
    (exponentField b).toNat = b.toNat / 2 ^ 52 % 2 ^ 11 := by
  simp [exponentField, unpackExponent, BitVec.extractLsb, BitVec.extractLsb',
    Nat.shiftRight_eq_div_pow]

theorem exponentField_eq_top_iff {b : BitVec 64} :
    exponentField b = -1#11 ↔ (exponentField b).toNat = 2047 :=
  BitVec.toNat_inj.symm

theorem exponentField_eq_zero_iff {b : BitVec 64} :
    exponentField b = 0#11 ↔ (exponentField b).toNat = 0 :=
  BitVec.toNat_inj.symm

theorem mantissaField_eq_zero_iff {b : BitVec 64} :
    mantissaField b = 0#52 ↔ (mantissaField b).toNat = 0 :=
  BitVec.toNat_inj.symm

theorem toNat_unpackSign (b : BitVec 64) :
    (@unpackSign .binary64 b).toNat = b.toNat / 2 ^ 63 := by
  have hlt := b.isLt
  simp [unpackSign, BitVec.extractLsb, BitVec.extractLsb', Nat.shiftRight_eq_div_pow]
  omega

theorem signField_eq (b : BitVec 64) :
    signField b = if b.toNat < 2 ^ 63 then .positive else .negative := by
  have hlt := b.isLt
  have hs := toNat_unpackSign b
  unfold signField Sign.ofBitVec
  by_cases hneg : b.toNat < 2 ^ 63
  · rw [if_pos hneg, if_pos]
    apply BitVec.eq_of_toNat_eq
    simp only [BitVec.toNat_ofNat]
    omega
  · rw [if_neg hneg, if_neg]
    intro h
    rw [h] at hs
    simp only [BitVec.toNat_ofNat] at hs
    omega

theorem toNat_one_append (m : BitVec 52) : (1#1 ++ m).toNat = 2 ^ 52 + m.toNat := by
  rw [BitVec.toNat_append, ← Nat.shiftLeft_add_eq_or_of_lt m.isLt]
  simp [Nat.shiftLeft_eq]

inductive Unpacked (b : BitVec 64) : UnpackedFloat → Prop where
  | infinity (top : exponentField b = -1#11) (none : mantissaField b = 0#52) :
      Unpacked b (.infinity (signField b))
  | nan (top : exponentField b = -1#11) (some : mantissaField b ≠ 0#52) :
      Unpacked b .notANumber
  | zero (least : exponentField b = 0#11) (none : mantissaField b = 0#52) :
      Unpacked b (.zero (signField b))
  | subnormal (least : exponentField b = 0#11) (pos : 0 < (mantissaField b).toNat) :
      Unpacked b (.finite (signField b) (mantissaField b).toNat (-1074) pos)
  | normal (least : exponentField b ≠ 0#11) (top : exponentField b ≠ -1#11)
      (pos : 0 < 2 ^ 52 + (mantissaField b).toNat) :
      Unpacked b (.finite (signField b) (2 ^ 52 + (mantissaField b).toNat)
        ((exponentField b).toNat - 1075) pos)

theorem mantissaField_pos {b : BitVec 64} (h : mantissaField b ≠ 0#52) :
    0 < (mantissaField b).toNat :=
  Nat.pos_of_ne_zero (mt mantissaField_eq_zero_iff.mpr h)

theorem unpacked (b : BitVec 64) : Unpacked b (UnpackedFloat.unpack .binary64 b) := by
  have hbias : (Format.binary64.exponentBias : Int) = 1023 := rfl
  by_cases htop : exponentField b = -1#11
  · by_cases hnone : mantissaField b = 0#52
    · have h : UnpackedFloat.unpack .binary64 b = .infinity (signField b) := by
        unfold UnpackedFloat.unpack
        exact (if_pos htop).trans (if_pos hnone)
      rw [h]
      exact .infinity htop hnone
    · have h : UnpackedFloat.unpack .binary64 b = .notANumber := by
        unfold UnpackedFloat.unpack
        exact (if_pos htop).trans (if_neg hnone)
      rw [h]
      exact .nan htop hnone
  · by_cases hleast : exponentField b = 0#11
    · by_cases hnone : mantissaField b = 0#52
      · have h : UnpackedFloat.unpack .binary64 b = .zero (signField b) := by
          unfold UnpackedFloat.unpack
          exact (if_neg htop).trans ((if_pos hleast).trans (dif_pos hnone))
        rw [h]
        exact .zero hleast hnone
      · have hpos := mantissaField_pos hnone
        have h : UnpackedFloat.unpack .binary64 b =
            .finite (signField b) (mantissaField b).toNat
              ((exponentField b).toNat - (1023 + 52) + 1) hpos := by
          unfold UnpackedFloat.unpack
          exact (if_neg htop).trans ((if_pos hleast).trans (dif_neg hnone))
        rw [h]
        simpa [hleast] using Unpacked.subnormal hleast hpos
    · have hpos : 0 < (1#1 ++ mantissaField b).toNat := by
        rw [toNat_one_append]
        omega
      have h : UnpackedFloat.unpack .binary64 b =
          .finite (signField b) (1#1 ++ mantissaField b).toNat
            ((exponentField b).toNat - (1023 + 52)) hpos := by
        unfold UnpackedFloat.unpack
        exact (if_neg htop).trans (if_neg hleast)
      rw [h]
      simpa only [toNat_one_append, Int.reduceAdd] using
        Unpacked.normal hleast htop (by omega)

/-!
# Signed magnitudes
-/

/-- A significand and an exponent as the format has them: the leading bit is
set unless the exponent is the least one. -/
def InRange (m : Nat) (e : Int) : Prop :=
  m < 2 ^ 53 ∧ -1074 ≤ e ∧ e ≤ 971 ∧ (2 ^ 52 ≤ m ∨ e = -1074)

theorem infinityBits_eq : infinityBits = 2047 * 2 ^ 52 := rfl

inductive Graded : UnpackedFloat → Int → Prop where
  | infinity (s : Sign) : Graded (.infinity s) (s.apply infinityBits)
  | zero (s : Sign) : Graded (.zero s) 0
  | finite (s : Sign) (m : Nat) (e : Int) (pos : 0 < m) (range : InRange m e) :
      Graded (.finite s m e pos) (s.apply ((e + 1074).toNat * 2 ^ 52 + m : Nat))

theorem compare_then_compare {m n : Nat} {e f : Int} (hm : InRange m e) (hn : InRange n f) :
    (compare e f).then (compare m n) =
      compare ((e + 1074).toNat * 2 ^ 52 + m) ((f + 1074).toNat * 2 ^ 52 + n) := by
  unfold InRange at hm hn
  rcases Int.lt_trichotomy e f with h | h | h
  · rw [Int.compare_eq_lt.mpr h]
    exact (Nat.compare_eq_lt.mpr (by omega)).symm
  · subst h
    rcases Nat.lt_trichotomy m n with h | h | h
    · rw [Nat.compare_eq_lt.mpr h, Nat.compare_eq_lt.mpr (by omega)]
      simp
    · subst h
      simp
    · rw [Nat.compare_eq_gt.mpr h, Nat.compare_eq_gt.mpr (by omega)]
      simp
  · rw [Int.compare_eq_gt.mpr h]
    exact (Nat.compare_eq_gt.mpr (by omega)).symm

theorem compare_natCast (a b : Nat) : compare (a : Int) (b : Int) = compare a b := by
  rcases Nat.lt_trichotomy a b with h | h | h
  · rw [Nat.compare_eq_lt.mpr h, Int.compare_eq_lt.mpr (by omega)]
  · rw [Nat.compare_eq_eq.mpr h, Int.compare_eq_eq.mpr (by omega)]
  · rw [Nat.compare_eq_gt.mpr h, Int.compare_eq_gt.mpr (by omega)]

theorem compare_neg (a b : Int) : compare (-a) (-b) = (compare a b).swap := by
  rw [Int.compare_swap]
  rcases Int.lt_trichotomy a b with h | h | h
  · rw [Int.compare_eq_gt.mpr h, Int.compare_eq_gt.mpr (by omega)]
  · rw [Int.compare_eq_eq.mpr h.symm, Int.compare_eq_eq.mpr (by omega)]
  · rw [Int.compare_eq_lt.mpr h, Int.compare_eq_lt.mpr (by omega)]

theorem some_lt_eq_compare {a b : Int} (h : a < b) : some .lt = some (compare a b) := by
  rw [Int.compare_eq_lt.mpr h]

theorem some_gt_eq_compare {a b : Int} (h : b < a) : some .gt = some (compare a b) := by
  rw [Int.compare_eq_gt.mpr h]

theorem compare_of_graded {u v : UnpackedFloat} {a b : Int}
    (hu : Graded u a) (hv : Graded v b) :
    u.compare v = some (compare a b) := by
  cases hu with
  | infinity s =>
      cases hv with
      | infinity t => cases s <;> cases t <;> rfl
      | zero t => cases s <;> rfl
      | finite t n f npos hn =>
          unfold InRange at hn
          cases s
          · exact some_lt_eq_compare (by cases t <;> simp only [Sign.apply, infinityBits_eq] <;> omega)
          · exact some_gt_eq_compare (by cases t <;> simp only [Sign.apply, infinityBits_eq] <;> omega)
  | zero s =>
      cases hv with
      | infinity t => cases t <;> rfl
      | zero t => rfl
      | finite t n f npos hn =>
          cases t
          · exact some_gt_eq_compare (by simp only [Sign.apply]; omega)
          · exact some_lt_eq_compare (by simp only [Sign.apply]; omega)
  | finite s m e mpos hm =>
      cases hv with
      | infinity t =>
          unfold InRange at hm
          cases t
          · exact some_gt_eq_compare (by cases s <;> simp only [Sign.apply, infinityBits_eq] <;> omega)
          · exact some_lt_eq_compare (by cases s <;> simp only [Sign.apply, infinityBits_eq] <;> omega)
      | zero t =>
          cases s
          · exact some_lt_eq_compare (by simp only [Sign.apply]; omega)
          · exact some_gt_eq_compare (by simp only [Sign.apply]; omega)
      | finite t n f npos hn =>
          have h := compare_then_compare hm hn
          cases s <;> cases t
          · show some ((compare e f).then (compare m n)).swap = _
            simp only [Sign.apply]
            rw [h, compare_neg, compare_natCast]
          · exact some_lt_eq_compare (by simp only [Sign.apply]; omega)
          · exact some_gt_eq_compare (by simp only [Sign.apply]; omega)
          · show some ((compare e f).then (compare m n)) = _
            simp only [Sign.apply]
            rw [h, compare_natCast]

def signedMagnitude (bits : Nat) : Int :=
  if bits < 2 ^ 63 then (bits : Int) else -((bits - 2 ^ 63 : Nat) : Int)

theorem signedMagnitude_eq (b : BitVec 64) :
    signedMagnitude b.toNat =
      (signField b).apply ((exponentField b).toNat * 2 ^ 52 + (mantissaField b).toNat : Nat) := by
  have hlt := b.isLt
  rw [toNat_exponentField, toNat_mantissaField, signField_eq]
  unfold signedMagnitude
  by_cases hneg : b.toNat < 2 ^ 63
  · rw [if_pos hneg, if_pos hneg]
    show (_ : Int) = ((_ : Nat) : Int)
    omega
  · rw [if_neg hneg, if_neg hneg]
    show _ = -((_ : Nat) : Int)
    omega

theorem graded_unpack {b : BitVec 64} (h : b.toNat % 2 ^ 63 ≤ infinityBits) :
    Graded (UnpackedFloat.unpack .binary64 b) (signedMagnitude b.toNat) := by
  have hm := toNat_mantissaField b
  have he := toNat_exponentField b
  have hmlt := (mantissaField b).isLt
  have helt := (exponentField b).isLt
  rw [infinityBits_eq] at h
  rw [signedMagnitude_eq]
  have hu := unpacked b
  generalize UnpackedFloat.unpack .binary64 b = u at hu ⊢
  cases hu with
  | infinity htop hnone =>
      have hbits : (-1#11).toNat * 2 ^ 52 + (0#52).toNat = infinityBits := by decide
      rw [htop, hnone, hbits]
      exact .infinity _
  | nan htop hsome =>
      have htop' := exponentField_eq_top_iff.mp htop
      have hpos := mantissaField_pos hsome
      omega
  | zero hleast hnone =>
      have hbits : (0#11).toNat * 2 ^ 52 + (0#52).toNat = 0 := by decide
      rw [hleast, hnone, hbits]
      cases signField b <;> exact .zero _
  | subnormal hleast hpos =>
      have hrange : InRange (mantissaField b).toNat (-1074) := by
        unfold InRange
        omega
      simpa [hleast] using Graded.finite (signField b) _ _ hpos hrange
  | normal hleast htop hpos =>
      have hleast' := mt exponentField_eq_zero_iff.mpr hleast
      have htop' := mt exponentField_eq_top_iff.mpr htop
      have hrange : InRange (2 ^ 52 + (mantissaField b).toNat)
          ((exponentField b).toNat - 1075) := by
        unfold InRange
        omega
      have hgraded := Graded.finite (signField b) _ _ hpos hrange
      have hmagnitude : (((exponentField b).toNat : Int) - 1075 + 1074).toNat * 2 ^ 52 +
          (2 ^ 52 + (mantissaField b).toNat) =
            (exponentField b).toNat * 2 ^ 52 + (mantissaField b).toNat := by
        omega
      rwa [hmagnitude] at hgraded

theorem unpack_of_infinityBits_lt {b : BitVec 64} (h : infinityBits < b.toNat % 2 ^ 63) :
    UnpackedFloat.unpack .binary64 b = .notANumber := by
  have hm := toNat_mantissaField b
  have he := toNat_exponentField b
  rw [infinityBits_eq] at h
  have htop : exponentField b = -1#11 := exponentField_eq_top_iff.mpr (by omega)
  have hsome : mantissaField b ≠ 0#52 := mt mantissaField_eq_zero_iff.mp (by omega)
  unfold UnpackedFloat.unpack
  exact (if_pos htop).trans (if_neg hsome)

/-!
# Packing
-/

theorem toNat_packComponents (s : Sign) (e : BitVec 11) (m : BitVec 52) :
    (packComponents .binary64 s e m).toNat =
      s.toBitVec.toNat * 2 ^ 63 + e.toNat * 2 ^ 52 + m.toNat := by
  unfold packComponents
  rw [BitVec.toNat_append, ← Nat.shiftLeft_add_eq_or_of_lt m.isLt, BitVec.toNat_append,
    ← Nat.shiftLeft_add_eq_or_of_lt e.isLt, Nat.shiftLeft_eq, Nat.shiftLeft_eq]
  omega

theorem packComponents_fields (b : BitVec 64) :
    packComponents .binary64 (signField b) (exponentField b) (mantissaField b) = b := by
  have hlt := b.isLt
  apply BitVec.eq_of_toNat_eq
  rw [toNat_packComponents, toNat_exponentField, toNat_mantissaField, signField_eq]
  by_cases hneg : b.toNat < 2 ^ 63
  · rw [if_pos hneg]
    show 0 * 2 ^ 63 + _ + _ = _
    omega
  · rw [if_neg hneg]
    show 1 * 2 ^ 63 + _ + _ = _
    omega

theorem pack_finite (s : Sign) (m : Nat) (e : Int) (pos : 0 < m) :
    UnpackedFloat.pack .binary64 (.finite s m e pos) =
      if 2 ^ 11 ≤ (e + 1023 + 52).toNat + 1 then packedInfinity .binary64 s
      else if m.log2 + 1 = 53 then
        packComponents .binary64 s (BitVec.ofNat 11 (e + 1023 + 52).toNat) (BitVec.ofNat 52 m)
      else packComponents .binary64 s 0#11 (BitVec.ofNat 52 m) := rfl

theorem pack_unpack {b : BitVec 64} (h : Format.binary64.Valid b) :
    UnpackedFloat.pack .binary64 (UnpackedFloat.unpack .binary64 b) = b := by
  have hmlt := (mantissaField b).isLt
  have helt := (exponentField b).isLt
  have hfields := packComponents_fields b
  have hu := unpacked b
  generalize UnpackedFloat.unpack .binary64 b = u at hu ⊢
  cases hu with
  | infinity htop hnone =>
      rw [htop, hnone] at hfields
      exact hfields
  | nan htop hsome => exact (h.eq_packedNaN htop hsome).symm
  | zero hleast hnone =>
      rw [hleast, hnone] at hfields
      exact hfields
  | subnormal hleast hpos =>
      have hlog := (Nat.log2_lt (by omega)).mpr hmlt
      rw [hleast] at hfields
      rw [pack_finite, if_neg (by omega), if_neg (by omega), BitVec.ofNat_toNat,
        BitVec.setWidth_eq]
      exact hfields
  | normal hleast htop hpos =>
      have hleast' := mt exponentField_eq_zero_iff.mpr hleast
      have htop' := mt exponentField_eq_top_iff.mpr htop
      have hlog : (2 ^ 52 + (mantissaField b).toNat).log2 = 52 := by
        rw [Nat.log2_eq_iff (by omega)]
        omega
      have hexponent :
          (((exponentField b).toNat : Int) - 1075 + 1023 + 52).toNat =
            (exponentField b).toNat := by
        omega
      have hmantissa :
          BitVec.ofNat 52 (2 ^ 52 + (mantissaField b).toNat) = mantissaField b := by
        apply BitVec.eq_of_toNat_eq
        rw [BitVec.toNat_ofNat]
        omega
      rw [pack_finite, hexponent, if_neg (by omega), if_pos (by omega), hmantissa,
        BitVec.ofNat_toNat, BitVec.setWidth_eq]
      exact hfields

/-!
# Doubles
-/

def IsNumber (x : Float) : Prop :=
  x.toBits.toNat % 2 ^ 63 ≤ infinityBits

theorem compare_of_isNumber {x y : Float} (hx : IsNumber x) (hy : IsNumber y) :
    x.toModel.unpack.compare y.toModel.unpack =
      some (compare (signedMagnitude x.toBits.toNat) (signedMagnitude y.toBits.toNat)) :=
  compare_of_graded (graded_unpack hx) (graded_unpack hy)

theorem isNumber_of_compare {x y : Float} {o : Ordering}
    (h : x.toModel.unpack.compare y.toModel.unpack = some o) :
    IsNumber x ∧ IsNumber y := by
  constructor
  · apply Nat.le_of_not_lt
    intro hx
    have hnan : x.toModel.unpack = .notANumber := unpack_of_infinityBits_lt hx
    rw [hnan] at h
    cases h
  · apply Nat.le_of_not_lt
    intro hy
    have hnan : y.toModel.unpack = .notANumber := unpack_of_infinityBits_lt hy
    rw [hnan] at h
    cases hu : x.toModel.unpack <;> rw [hu] at h <;> cases h

theorem lt_iff_compare (x y : Float) :
    x < y ↔ x.toModel.unpack.compare y.toModel.unpack = some .lt := by
  show decide ((x.toModel.unpack.compare y.toModel.unpack == some .lt) = true) = true ↔ _
  rw [decide_eq_true_iff]
  exact beq_iff_eq

theorem beq_iff_compare (x y : Float) :
    (x == y) = true ↔ x.toModel.unpack.compare y.toModel.unpack = some .eq := by
  show (x.toModel.unpack.compare y.toModel.unpack == some .eq) = true ↔ _
  exact beq_iff_eq

theorem le_iff_compare (x y : Float) :
    x ≤ y ↔ (x.toModel.unpack.compare y.toModel.unpack).any (·.isLE) = true := by
  show decide ((x.toModel.unpack.compare y.toModel.unpack).any (·.isLE) = true) = true ↔ _
  exact decide_eq_true_iff

theorem lt_iff (x y : Float) :
    x < y ↔ IsNumber x ∧ IsNumber y ∧
      signedMagnitude x.toBits.toNat < signedMagnitude y.toBits.toNat := by
  rw [lt_iff_compare]
  constructor
  · intro h
    rcases isNumber_of_compare h with ⟨hx, hy⟩
    rw [compare_of_isNumber hx hy, Option.some.injEq, Int.compare_eq_lt] at h
    exact ⟨hx, hy, h⟩
  · rintro ⟨hx, hy, h⟩
    rw [compare_of_isNumber hx hy, Int.compare_eq_lt.mpr h]

theorem beq_iff (x y : Float) :
    (x == y) = true ↔ IsNumber x ∧ IsNumber y ∧
      signedMagnitude x.toBits.toNat = signedMagnitude y.toBits.toNat := by
  rw [beq_iff_compare]
  constructor
  · intro h
    rcases isNumber_of_compare h with ⟨hx, hy⟩
    rw [compare_of_isNumber hx hy, Option.some.injEq, Int.compare_eq_eq] at h
    exact ⟨hx, hy, h⟩
  · rintro ⟨hx, hy, h⟩
    rw [compare_of_isNumber hx hy, Int.compare_eq_eq.mpr h]

theorem isZero_of_unpack_eq_zero {b : BitVec 64} {s : Sign}
    (h : UnpackedFloat.unpack .binary64 b = .zero s) : b.toNat % 2 ^ 63 = 0 := by
  have hm := toNat_mantissaField b
  have he := toNat_exponentField b
  have hu := unpacked b
  rw [h] at hu
  cases hu with
  | zero hleast hnone =>
      have hleast' := exponentField_eq_zero_iff.mp hleast
      have hnone' := mantissaField_eq_zero_iff.mp hnone
      omega

theorem unpack_of_isZero {b : BitVec 64} (h : b.toNat % 2 ^ 63 = 0) :
    UnpackedFloat.unpack .binary64 b = .zero (signField b) := by
  have hm := toNat_mantissaField b
  have he := toNat_exponentField b
  have hleast : exponentField b = 0#11 := exponentField_eq_zero_iff.mpr (by omega)
  have hnone : mantissaField b = 0#52 := mantissaField_eq_zero_iff.mpr (by omega)
  have htop : exponentField b ≠ -1#11 := by
    rw [hleast]
    decide
  unfold UnpackedFloat.unpack
  exact (if_neg htop).trans ((if_pos hleast).trans (dif_pos hnone))

theorem add_zero_of_ne_zero {u : UnpackedFloat} (h : ∀ s, u ≠ .zero s) :
    UnpackedFloat.add .binary64 u (.zero .positive) = u := by
  cases u with
  | zero s => exact absurd rfl (h s)
  | _ => rfl

/-- Adding zero clears the sign of a zero and keeps any other double. -/
theorem toNat_toBits_add_zero (x : Float) :
    (x + 0).toBits.toNat = if x.toBits.toNat % 2 ^ 63 = 0 then 0 else x.toBits.toNat := by
  have hadd : (x + 0).toBits = UInt64.ofBitVec (UnpackedFloat.pack .binary64
      (UnpackedFloat.add .binary64
        (UnpackedFloat.unpack .binary64 x.toModel.toBits.toBitVec) (.zero .positive))) := rfl
  rw [hadd]
  by_cases hzero : x.toBits.toNat % 2 ^ 63 = 0
  · have hzero' : x.toModel.toBits.toBitVec.toNat % 2 ^ 63 = 0 := hzero
    rw [if_pos hzero, unpack_of_isZero hzero']
    cases signField x.toModel.toBits.toBitVec <;> rfl
  · rw [if_neg hzero, add_zero_of_ne_zero, pack_unpack x.toModel.valid]
    · rfl
    · intro s hs
      exact hzero (isZero_of_unpack_eq_zero hs)

theorem rank_eq (x : Float) :
    rank x = if x.toBits.toNat < 2 ^ 63 then (x.toBits.toNat : Int)
      else -((x.toBits.toNat - 2 ^ 63 : Nat) : Int) - 1 :=
  rfl

theorem rank_injective {x y : Float} (h : rank x = rank y) : x = y := by
  have hx := x.toBits.toNat_lt
  have hy := y.toBits.toNat_lt
  have hbits : x.toBits = y.toBits := by
    apply UInt64.toNat_inj.mp
    simp only [rank_eq] at h
    split at h <;> split at h <;> omega
  cases x with
  | ofModel a =>
      cases y with
      | ofModel b =>
          cases a
          cases b
          cases hbits
          rfl

theorem rank_add_zero_lt_iff {x y : Float} :
    rank (x + 0) < rank (y + 0) ↔
      signedMagnitude x.toBits.toNat < signedMagnitude y.toBits.toNat := by
  have hx := x.toBits.toNat_lt
  have hy := y.toBits.toNat_lt
  simp only [rank_eq, toNat_toBits_add_zero, signedMagnitude]
  split <;> split <;> split <;> split <;> omega

theorem rank_lt_rank_of_lt {x y : Float} (h : x < y) : rank x < rank y := by
  have hx := x.toBits.toNat_lt
  have hy := y.toBits.toNat_lt
  have hlt := ((lt_iff x y).mp h).2.2
  revert hlt
  simp only [rank_eq, signedMagnitude]
  split <;> split <;> omega

theorem add_zero_eq_iff {x y : Float} :
    x + 0 = y + 0 ↔
      signedMagnitude x.toBits.toNat = signedMagnitude y.toBits.toNat := by
  constructor
  · intro h
    have hlt := rank_add_zero_lt_iff (x := x) (y := y)
    have hgt := rank_add_zero_lt_iff (x := y) (y := x)
    rw [h] at hlt hgt
    omega
  · intro h
    apply rank_injective
    have hlt := rank_add_zero_lt_iff (x := x) (y := y)
    have hgt := rank_add_zero_lt_iff (x := y) (y := x)
    omega

theorem isNumber_add_zero {x : Float} : IsNumber (x + 0) ↔ IsNumber x := by
  unfold IsNumber
  rw [toNat_toBits_add_zero]
  split
  · simp_all [infinityBits]
  · rfl

theorem add_zero_add_zero (x : Float) : x + 0 + 0 = x + 0 := by
  apply add_zero_eq_iff.mpr
  rw [toNat_toBits_add_zero]
  by_cases hzero : x.toBits.toNat % 2 ^ 63 = 0
  · have hx := x.toBits.toNat_lt
    rw [if_pos hzero]
    unfold signedMagnitude
    split <;> omega
  · rw [if_neg hzero]

end Double
end Numeric
end Extrusion
