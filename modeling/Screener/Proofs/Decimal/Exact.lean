import Mathlib
import Screener.Decimal.Binary

/-! What doubles stand for, exactly. The parts of a double are those with which the arithmetic of doubles works; a
finite one is a whole significand times a power of two, and doubles compare as these numbers do. -/
namespace Screener.Decimal
open Float.Model (Format UnpackedFloat)
open Float.Model.UnpackedFloat

def signOf? (negative : Bool) : Sign := if negative then .negative else .positive

def signed (negative : Bool) (size : ℚ) : ℚ := if negative then -size else size

@[simp] theorem signed_false (a : ℚ) : signed false a = a := rfl

@[simp] theorem signed_true (a : ℚ) : signed true a = -a := rfl

@[simp] theorem signed_zero (c : Bool) : signed c 0 = 0 := by cases c <;> simp

@[simp] theorem abs_signed (c : Bool) (a : ℚ) : |signed c a| = |a| := by cases c <;> simp

theorem signed_mul (c d : Bool) (a b : ℚ) : signed c a * signed d b = signed (c ^^ d) (a * b) := by
  cases c <;> cases d <;> simp

theorem signed_div (c d : Bool) (a b : ℚ) : signed c a / signed d b = signed (c ^^ d) (a / b) := by
  cases c <;> cases d <;> simp [neg_div, div_neg]

namespace Binary

def unpacked : Binary → UnpackedFloat
  | .finite negative significand exponent =>
    if positive : 0 < significand then .finite (signOf? negative) significand exponent positive
    else .zero (signOf? negative)
  | .infinite negative => .infinity (signOf? negative)
  | .undefined => .notANumber

def Canonical : Binary → Prop
  | .finite _ significand exponent =>
    significand < 2 ^ 53 ∧ -1074 ≤ exponent ∧ exponent ≤ 971 ∧ (2 ^ 52 ≤ significand ∨ exponent = -1074)
  | _ => True

def value? : Binary → Option ℚ
  | .finite negative significand exponent => some (signed negative (significand * 2 ^ exponent))
  | _ => none

end Binary

private theorem unpackExponent_toNat (bits : BitVec Format.binary64.numBits) :
    (unpackExponent bits).toNat = bits.toNat / leadingBit % Nat.pow 2 11 := by
  simp [unpackExponent, BitVec.extractLsb, BitVec.extractLsb', leadingBit, Nat.shiftRight_eq_div_pow]

private theorem unpackMantissa_toNat (bits : BitVec Format.binary64.numBits) :
    (unpackMantissa bits).toNat = bits.toNat % leadingBit := by
  simp [unpackMantissa, BitVec.extractLsb, BitVec.extractLsb', leadingBit]

private theorem unpackSign_eq (bits : BitVec Format.binary64.numBits) :
    Sign.ofBitVec (unpackSign bits) = signOf? (bits.toNat / Nat.pow 2 63 == 1) := by
  have small : bits.toNat < 2 ^ 64 := bits.isLt
  have bit : (unpackSign bits).toNat = bits.toNat / 2 ^ 63 := by
    simp [unpackSign, BitVec.extractLsb, BitVec.extractLsb', Nat.shiftRight_eq_div_pow]
    omega
  change _ = signOf? (bits.toNat / 2 ^ 63 == 1)
  rw [← bit]
  generalize unpackSign bits = sign
  have : sign = 0#1 ∨ sign = 1#1 := by
    have := sign.isLt
    rcases (by omega : sign.toNat = 0 ∨ sign.toNat = 1) with zero | one
    · exact .inl (BitVec.eq_of_toNat_eq zero)
    · exact .inr (BitVec.eq_of_toNat_eq one)
  rcases this with rfl | rfl <;> rfl

private theorem append_leading (m : BitVec 52) : (1#1 ++ m).toNat = leadingBit + m.toNat := by
  rw [BitVec.toNat_append, ← Nat.shiftLeft_add_eq_or_of_lt m.isLt]
  rfl

theorem unpack_eq (x : Float) : x.toModel.unpack = (Binary.ofFloat x).unpacked := by
  let bits : BitVec Format.binary64.numBits := x.toModel.toBits.toBitVec
  have exponent : (unpackExponent bits).toNat = x.toBits.toNat / leadingBit % Nat.pow 2 11 := unpackExponent_toNat bits
  have mantissa : (unpackMantissa bits).toNat = x.toBits.toNat % leadingBit := unpackMantissa_toNat bits
  have sign : Sign.ofBitVec (unpackSign bits) = signOf? (x.toBits.toNat / Nat.pow 2 63 == 1) := unpackSign_eq bits
  have top : unpackExponent bits = -1#11 ↔ x.toBits.toNat / leadingBit % Nat.pow 2 11 = 2047 := by
    rw [← exponent, ← BitVec.toNat_inj]
    rfl
  have bottom : unpackExponent bits = 0#11 ↔ x.toBits.toNat / leadingBit % Nat.pow 2 11 = 0 := by
    rw [← exponent, ← BitVec.toNat_inj]
    rfl
  have empty : unpackMantissa bits = 0#52 ↔ x.toBits.toNat % leadingBit = 0 := by
    rw [← mantissa, ← BitVec.toNat_inj]
    rfl
  change UnpackedFloat.unpack Format.binary64 bits = _
  unfold UnpackedFloat.unpack Binary.ofFloat
  dsimp only
  rw [sign]
  simp only [top, bottom, empty, append_leading, exponent, mantissa]
  by_cases full : x.toBits.toNat / leadingBit % Nat.pow 2 11 = 2047
  · rw [if_pos full, if_pos full]
    split <;> rfl
  · rw [if_neg full, if_neg full]
    by_cases least : x.toBits.toNat / leadingBit % Nat.pow 2 11 = 0
    · rw [if_pos least, if_pos least, Binary.unpacked]
      split
      · rename_i zero
        rw [dif_neg (by omega)]
      · rename_i positive
        rw [dif_pos (Nat.pos_of_ne_zero positive), least]
        rfl
    · rw [if_neg least, if_neg least, Binary.unpacked, dif_pos (Nat.add_pos_left (by decide) _)]
      congr 1
      change (_ : Int) - 1075 = -1074 + _
      omega

theorem canonical_ofFloat (x : Float) : (Binary.ofFloat x).Canonical := by
  have biased_lt : x.toBits.toNat / leadingBit % Nat.pow 2 11 < 2048 := Nat.mod_lt _ (by decide)
  have fraction_lt : x.toBits.toNat % leadingBit < 2 ^ 52 := Nat.mod_lt _ (by decide)
  unfold Binary.ofFloat
  dsimp only
  split
  · split <;> trivial
  · split
    · exact ⟨by omega, by decide, by decide, .inr rfl⟩
    · have leading : leadingBit = 2 ^ 52 := rfl
      refine ⟨by omega, ?_, ?_, .inl (by omega)⟩
      · change -1074 ≤ -1074 + ((_ : Nat) : Int)
        omega
      · change -1074 + ((_ : Nat) : Int) ≤ 971
        omega

private theorem toNat_packComponents (sign : Sign) (exponent : BitVec 11) (mantissa : BitVec 52) :
    (packComponents Format.binary64 sign exponent mantissa).toNat =
      (sign.toBitVec.toNat * 2 ^ 11 + exponent.toNat) * 2 ^ 52 + mantissa.toNat := by
  change (sign.toBitVec ++ exponent ++ mantissa).toNat = _
  rw [BitVec.toNat_append, BitVec.toNat_append, ← Nat.shiftLeft_add_eq_or_of_lt mantissa.isLt,
    ← Nat.shiftLeft_add_eq_or_of_lt exponent.isLt, Nat.shiftLeft_eq, Nat.shiftLeft_eq]

def ofParts (negative : Bool) (significand : Nat) (exponent : Int) : Float :=
  .ofModel (.pack (Binary.finite negative significand exponent).unpacked)

private theorem ofFloat_components (x : Float) (negative : Bool) (biased fraction : Nat) (exponent_lt : biased < 2047)
    (fraction_lt : fraction < 2 ^ 52)
    (bits : x.toBits.toNat = ((if negative then 1 else 0) * 2 ^ 11 + biased) * 2 ^ 52 + fraction) :
    Binary.ofFloat x =
      if biased = 0 then .finite negative fraction (-1074)
      else .finite negative (2 ^ 52 + fraction) (biased - 1075) := by
  have fraction_eq : x.toBits.toNat % leadingBit = fraction := by
    change _ % 2 ^ 52 = _
    omega
  have biased_eq : x.toBits.toNat / leadingBit % Nat.pow 2 11 = biased := by
    change _ / 2 ^ 52 % 2 ^ 11 = _
    omega
  have negative_eq : (x.toBits.toNat / Nat.pow 2 63 == 1) = negative := by
    change (_ / 2 ^ 63 == 1) = _
    cases negative
    · rw [beq_eq_false_iff_ne]
      simp at bits
      omega
    · rw [beq_iff_eq]
      simp at bits
      omega
  unfold Binary.ofFloat
  simp only [fraction_eq, biased_eq, negative_eq]
  rw [if_neg (by omega)]
  split
  · rfl
  · congr 1
    change (-1074 : Int) + _ = _
    omega

private theorem toNat_signOf? (negative : Bool) : (signOf? negative).toBitVec.toNat = if negative then 1 else 0 := by
  cases negative <;> rfl

private theorem toBits_ofModel_pack (u : UnpackedFloat) :
    (Float.ofModel (.pack u)).toBits.toNat = (UnpackedFloat.pack Format.binary64 u).toNat := rfl

private theorem log2_eq_of_leading {significand : Nat} (leading : 2 ^ 52 ≤ significand) (below : significand < 2 ^ 53) :
    significand.log2 = 52 := (Nat.log2_eq_iff (by omega)).2 ⟨leading, below⟩

private theorem ofFloat_ofParts {negative : Bool} {significand : Nat} {exponent : Int}
    (canonical : (Binary.finite negative significand exponent).Canonical) :
    Binary.ofFloat (ofParts negative significand exponent) = .finite negative significand exponent := by
  obtain ⟨below, least, greatest, leading⟩ := canonical
  have in_range : ¬ 2 ^ 11 ≤ (exponent + 1023 + 52).toNat + 1 := by omega
  by_cases zero : significand = 0
  · subst zero
    obtain rfl : exponent = -1074 := leading.resolve_left (by decide)
    cases negative <;> rfl
  · have positive : 0 < significand := Nat.pos_of_ne_zero zero
    have packed : (ofParts negative significand exponent).toBits.toNat =
        (if significand.log2 + 1 = 53 then
          packComponents Format.binary64 (signOf? negative) (BitVec.ofNat 11 (exponent + 1023 + 52).toNat)
            (BitVec.ofNat 52 significand)
        else packComponents Format.binary64 (signOf? negative) 0#11 (BitVec.ofNat 52 significand)).toNat := by
      rw [ofParts, toBits_ofModel_pack, Binary.unpacked, dif_pos positive, UnpackedFloat.pack]
      exact congrArg BitVec.toNat (if_neg in_range)
    by_cases normal : 2 ^ 52 ≤ significand
    · have fraction : significand = 2 ^ 52 + (significand - 2 ^ 52) := by omega
      rw [log2_eq_of_leading normal below, if_pos rfl, toNat_packComponents, toNat_signOf?, BitVec.toNat_ofNat,
        BitVec.toNat_ofNat] at packed
      rw [ofFloat_components _ negative (exponent + 1023 + 52).toNat (significand - 2 ^ 52) (by omega) (by omega)
        (by rw [packed]; omega), if_neg (by omega), ← fraction]
      congr 1
      omega
    · obtain rfl : exponent = -1074 := leading.resolve_left normal
      have small : ¬ significand.log2 + 1 = 53 := by
        have := (Nat.log2_lt zero).2 (Nat.not_le.1 normal)
        omega
      rw [if_neg small, toNat_packComponents, toNat_signOf?, BitVec.toNat_ofNat, BitVec.toNat_ofNat] at packed
      rw [ofFloat_components _ negative 0 significand (by decide) (by omega) (by rw [packed]; omega), if_pos rfl]

/-- The number that a double is. Infinities are none, and what is no number is none. -/
def rational? (x : Float) : Option ℚ := (Binary.ofFloat x).value?

theorem rational?_eq_some_iff {x : Float} {a : ℚ} :
    rational? x = some a ↔ ∃ negative significand exponent,
      Binary.ofFloat x = .finite negative significand exponent ∧
        signed negative (significand * 2 ^ exponent) = a := by
  unfold rational?
  cases Binary.ofFloat x <;> simp [Binary.value?, and_assoc]

theorem parts_of_rational {x : Float} {a : ℚ} (value : rational? x = some a) :
    ∃ negative significand exponent, Binary.ofFloat x = .finite negative significand exponent ∧
      (Binary.finite negative significand exponent).Canonical ∧ signed negative (significand * 2 ^ exponent) = a := by
  obtain ⟨negative, significand, exponent, parts, size⟩ := rational?_eq_some_iff.1 value
  have canonical := canonical_ofFloat x
  rw [parts] at canonical
  exact ⟨negative, significand, exponent, parts, canonical, size⟩

theorem rational?_ofParts {negative : Bool} {significand : Nat} {exponent : Int}
    (canonical : (Binary.finite negative significand exponent).Canonical) :
    rational? (ofParts negative significand exponent) =
      some (signed negative (significand * 2 ^ exponent)) := by
  rw [rational?, ofFloat_ofParts canonical, Binary.value?]

private theorem size_lt {m n : Nat} {e f : Int} (below : m < 2 ^ 53) (normal : 2 ^ 52 ≤ n) (lower : e < f) :
    (m : ℚ) * 2 ^ e < n * 2 ^ f := by
  have powers : (2 : ℚ) ^ (53 : Int) * 2 ^ e ≤ 2 ^ (52 : Int) * 2 ^ f := by
    rw [← zpow_add₀ (by norm_num), ← zpow_add₀ (by norm_num)]
    exact zpow_le_zpow_right₀ (by norm_num) (by omega)
  have scale_e : (0 : ℚ) < 2 ^ e := by positivity
  have scale_f : (0 : ℚ) < 2 ^ f := by positivity
  have m_lt : (m : ℚ) < 2 ^ (53 : Int) := by exact_mod_cast below
  have le_n : (2 : ℚ) ^ (52 : Int) ≤ n := by exact_mod_cast normal
  calc (m : ℚ) * 2 ^ e < 2 ^ (53 : Int) * 2 ^ e := mul_lt_mul_of_pos_right m_lt scale_e
    _ ≤ 2 ^ (52 : Int) * 2 ^ f := powers
    _ ≤ n * 2 ^ f := mul_le_mul_of_nonneg_right le_n scale_f.le

theorem compare_sizes {b c : Bool} {m n : Nat} {e f : Int} (left : (Binary.finite b m e).Canonical)
    (right : (Binary.finite c n f).Canonical) :
    (compare e f).then (compare m n) = compare ((m : ℚ) * 2 ^ e) (n * 2 ^ f) := by
  obtain ⟨m_below, e_least, -, m_normal⟩ := left
  obtain ⟨n_below, f_least, -, n_normal⟩ := right
  rcases lt_trichotomy e f with lower | rfl | higher
  · have normal : 2 ^ 52 ≤ n := n_normal.resolve_right (by omega)
    rw [compare_lt_iff_lt.2 lower, compare_lt_iff_lt.2 (size_lt m_below normal lower)]
    rfl
  · have scale : (0 : ℚ) < 2 ^ e := by positivity
    rw [compare_eq_iff_eq.2 rfl, Ordering.eq_then]
    rcases lt_trichotomy m n with less | rfl | more
    · rw [compare_lt_iff_lt.2 less, eq_comm, compare_lt_iff_lt]
      exact mul_lt_mul_of_pos_right (by exact_mod_cast less) scale
    · rw [compare_eq_iff_eq.2 rfl, compare_eq_iff_eq.2 rfl]
    · rw [compare_gt_iff_gt.2 more, eq_comm, compare_gt_iff_gt]
      exact mul_lt_mul_of_pos_right (by exact_mod_cast more) scale
  · have normal : 2 ^ 52 ≤ m := m_normal.resolve_right (by omega)
    rw [compare_gt_iff_gt.2 higher, compare_gt_iff_gt.2 (size_lt n_below normal higher)]
    rfl

private theorem compare_neg (a b : ℚ) : compare (-a) (-b) = (compare a b).swap := by
  rcases lt_trichotomy a b with less | rfl | more
  · rw [compare_lt_iff_lt.2 less, compare_gt_iff_gt.2 (neg_lt_neg less)]
    rfl
  · rw [compare_eq_iff_eq.2 rfl, compare_eq_iff_eq.2 rfl]
    rfl
  · rw [compare_gt_iff_gt.2 more, compare_lt_iff_lt.2 (neg_lt_neg more)]
    rfl

/-- Doubles compare as the numbers that they are. -/
theorem compare_unpack {x y : Float} {a b : ℚ} (left : rational? x = some a) (right : rational? y = some b) :
    x.toModel.unpack.compare y.toModel.unpack = some (compare a b) := by
  obtain ⟨c, m, e, x_parts, x_canonical, rfl⟩ := parts_of_rational left
  obtain ⟨d, n, f, y_parts, y_canonical, rfl⟩ := parts_of_rational right
  have order := compare_sizes x_canonical y_canonical
  rw [unpack_eq, unpack_eq, x_parts, y_parts, Binary.unpacked, Binary.unpacked]
  split
  · rename_i m_pos
    have m_size : (0 : ℚ) < m * 2 ^ e := by positivity
    split
    · rename_i n_pos
      have n_size : (0 : ℚ) < n * 2 ^ f := by positivity
      cases c <;> cases d
      · exact congrArg some order
      · exact congrArg some (compare_gt_iff_gt.2 ((neg_lt_zero.2 n_size).trans m_size)).symm
      · exact congrArg some (compare_lt_iff_lt.2 ((neg_lt_zero.2 m_size).trans n_size)).symm
      · exact congrArg some ((congrArg Ordering.swap order).trans (compare_neg _ _).symm)
    · rename_i n_zero
      obtain rfl := Nat.eq_zero_of_not_pos n_zero
      simp only [Nat.cast_zero, zero_mul, signed_zero]
      cases c
      · exact congrArg some (compare_gt_iff_gt.2 m_size).symm
      · exact congrArg some (compare_lt_iff_lt.2 (neg_lt_zero.2 m_size)).symm
  · rename_i m_zero
    obtain rfl := Nat.eq_zero_of_not_pos m_zero
    simp only [Nat.cast_zero, zero_mul, signed_zero]
    split
    · rename_i n_pos
      have n_size : (0 : ℚ) < n * 2 ^ f := by positivity
      cases d
      · exact congrArg some (compare_lt_iff_lt.2 n_size).symm
      · exact congrArg some (compare_gt_iff_gt.2 (neg_lt_zero.2 n_size)).symm
    · rename_i n_zero
      obtain rfl := Nat.eq_zero_of_not_pos n_zero
      simp only [Nat.cast_zero, zero_mul, signed_zero]
      exact congrArg some (compare_eq_iff_eq.2 rfl).symm

theorem lt_iff_rational {x y : Float} {a b : ℚ} (left : rational? x = some a) (right : rational? y = some b) :
    x < y ↔ a < b := by
  have order := compare_unpack left right
  change decide ((x.toModel.unpack.compare y.toModel.unpack == some .lt) = true) = true ↔ _
  rw [order, decide_eq_true_iff, beq_iff_eq, Option.some.injEq, compare_lt_iff_lt]

theorem le_iff_rational {x y : Float} {a b : ℚ} (left : rational? x = some a) (right : rational? y = some b) :
    x ≤ y ↔ a ≤ b := by
  have order := compare_unpack left right
  change decide ((x.toModel.unpack.compare y.toModel.unpack).any (·.isLE) = true) = true ↔ _
  rw [order, decide_eq_true_iff, Option.any_some, Ordering.isLE_iff_ne_gt]
  exact (not_congr compare_gt_iff_gt).trans not_lt

end Screener.Decimal
