import Screener.Proofs.Decimal.Exact

/-! How doubles are rounded. A result is first known by its whole significand and by how the rest compares with a
half; shifting keeps that knowledge, and from it the nearest double is taken. -/
namespace Screener.Decimal
open Float.Model (Format UnpackedFloat totalExponent)
open Float.Model.UnpackedFloat

/-- What a significand with its two further bits tells of a number. -/
def Tells (m : ExtendedMantissa) (x : ℚ) : Prop :=
  if m.roundBit then
    if m.stickyBit then (m.mantissa : ℚ) + 1 / 2 < x ∧ x < m.mantissa + 1 else x = m.mantissa + 1 / 2
  else if m.stickyBit then (m.mantissa : ℚ) < x ∧ x < m.mantissa + 1 / 2 else x = m.mantissa

namespace Tells
variable {m : ExtendedMantissa} {x : ℚ}

theorem bounds (told : Tells m x) : (m.mantissa : ℚ) ≤ x ∧ x < m.mantissa + 1 := by
  obtain ⟨n, round, sticky⟩ := m
  cases round <;> cases sticky <;> simp only [Tells, Bool.false_eq_true, if_true, if_false] at told ⊢ <;>
    constructor <;> linarith

theorem near (told : Tells m x) : |(m.roundedMantissa : ℚ) - x| ≤ 1 / 2 := by
  obtain ⟨n, round, sticky⟩ := m
  have parity : n % 2 = 0 ∨ n % 2 = 1 := by omega
  rw [abs_le]
  cases round <;> cases sticky <;> simp only [Tells, Bool.false_eq_true, if_true, if_false] at told <;>
    simp only [ExtendedMantissa.roundedMantissa, ExtendedMantissa.accuracy, Accuracy.roundToNearestEven]
  · constructor <;> linarith
  · constructor <;> linarith
  · rcases parity with even | odd
    · rw [even]
      constructor <;> push_cast <;> linarith
    · rw [odd]
      constructor <;> push_cast <;> linarith
  · constructor <;> push_cast <;> linarith

theorem shiftRightOne (told : Tells m x) : Tells m.shiftRightOne (x / 2) := by
  obtain ⟨n, round, sticky⟩ := m
  have halves : (n : ℚ) = 2 * (n / 2 : Nat) + (n % 2 : Nat) := by exact_mod_cast (Nat.div_add_mod n 2).symm
  have parity : n % 2 = 0 ∨ n % 2 = 1 := by omega
  rcases parity with bit | bit <;> rw [bit] at halves <;> push_cast at halves <;>
    cases round <;> cases sticky <;>
      simp only [Tells, ExtendedMantissa.shiftRightOne, bit, Bool.false_eq_true, if_true, if_false] at told ⊢ <;>
        simp <;> (try constructor) <;> linarith

theorem shiftRight (told : Tells m x) (n : Nat) : Tells (m >>> n) (x / 2 ^ n) := by
  change Tells (n.repeat ExtendedMantissa.shiftRightOne m) _
  induction n with
  | zero => simpa [Nat.repeat] using told
  | succ n ih =>
    have once := ih.shiftRightOne
    rwa [div_div, ← pow_succ] at once

end Tells

def target (m : Nat) (e : Int) : Int := max (m.log2 + e - 52) (-1074)

private theorem targetExponent_eq (m : Nat) (e : Int) :
    Format.binary64.targetExponent (totalExponent m e) = target m e := by
  have spec : Format.binary64.targetExponent (totalExponent m e) = max (m.log2 + 1 + e - 53) (-1074) := rfl
  rw [spec, target]
  congr 1
  omega

private theorem shiftToTargetExponent_eq (m : Nat) (e : Int) (accuracy : Accuracy) :
    shiftToTargetExponent Format.binary64 m e accuracy =
      (ExtendedMantissa.ofMantissaAndAccuracy m accuracy >>> (target m e - e).toNat, e + (target m e - e).toNat) := by
  rw [shiftToTargetExponent, targetExponent_eq]
  rfl

private theorem roundWithAccuracy_eq (s : Sign) {k : ExtendedMantissa} {m r : Nat} {e t : Int} {accuracy : Accuracy}
    (first : shiftToTargetExponent Format.binary64 m e accuracy = (k, t)) (rounded : k.roundedMantissa = r)
    (least : -1074 ≤ t) (bound : r ≤ 2 ^ 53) :
    roundWithAccuracy Format.binary64 s m e accuracy =
      if positive : 0 < r then
        if r < 2 ^ 53 then .finite s r t positive else .finite s (2 ^ 52) (t + 1) (by decide)
      else .zero s := by
  have none (n : ExtendedMantissa) : n >>> (0 : Nat) = n := rfl
  unfold roundWithAccuracy
  rw [first]
  dsimp only
  rw [rounded, shiftToTargetExponent_eq]
  by_cases full : r < 2 ^ 53
  · have log : r.log2 ≤ 52 := by
      by_cases zero : r = 0
      · rw [zero]
        decide
      · have := (Nat.log2_lt zero).2 full
        omega
    have still : (target r t - t).toNat = 0 := by
      unfold target
      omega
    rw [still, none]
    by_cases positive : 0 < r
    · simp only [ExtendedMantissa.ofMantissaAndAccuracy, dif_neg positive.ne', dif_pos positive, if_pos full,
        Nat.cast_zero, add_zero]
    · obtain rfl := Nat.eq_zero_of_not_pos positive
      rfl
  · obtain rfl : r = 2 ^ 53 := by omega
    have once : (target (2 ^ 53) t - t).toNat = 1 := by
      rw [target, Nat.log2_two_pow]
      omega
    rw [once]
    rfl

private theorem scaled_lt {m : Nat} {x : ℚ} (e : Int) (below : x < m + 1) : x * 2 ^ (e - target m e) < 2 ^ 53 := by
  have scale : (0 : ℚ) < 2 ^ (e - target m e) := by positivity
  have bound : x < 2 ^ (m.log2 + 1 : Int) := by
    have : (m : ℚ) + 1 ≤ 2 ^ (m.log2 + 1) := by exact_mod_cast Nat.lt_log2_self
    exact_mod_cast below.trans_le this
  have small : x * 2 ^ (e - target m e) < 2 ^ (53 : Int) := by
    calc x * 2 ^ (e - target m e) < 2 ^ (m.log2 + 1 : Int) * 2 ^ (e - target m e) := mul_lt_mul_of_pos_right bound scale
      _ = 2 ^ (m.log2 + 1 + (e - target m e) : Int) := (zpow_add₀ (by norm_num) _ _).symm
      _ ≤ 2 ^ (53 : Int) := zpow_le_zpow_right₀ (by norm_num) (by unfold target; omega)
  exact_mod_cast small

private theorem leading_le {m : Nat} {x : ℚ} {e : Int} (fine : e ≤ target m e) (above : m ≤ x)
    (normal : target m e ≠ -1074) : (2 : ℚ) ^ (m.log2 : Int) ≤ x := by
  have positive : m ≠ 0 := by
    rintro rfl
    unfold target at fine normal
    rw [Nat.log2_zero] at fine normal
    omega
  have : (2 : ℚ) ^ m.log2 ≤ m := by exact_mod_cast Nat.log2_self_le positive
  exact_mod_cast this.trans above

private theorem le_scaled {m : Nat} {x : ℚ} {e : Int} (fine : e ≤ target m e) (above : m ≤ x)
    (normal : target m e ≠ -1074) : 2 ^ 52 ≤ x * 2 ^ (e - target m e) := by
  have scale : (0 : ℚ) < 2 ^ (e - target m e) := by positivity
  have bound := leading_le fine above normal
  have exponents : (52 : Int) = m.log2 + (e - target m e) := by
    unfold target at normal ⊢
    omega
  have large : 2 ^ (52 : Int) ≤ x * 2 ^ (e - target m e) := by
    calc (2 : ℚ) ^ (52 : Int) = 2 ^ (m.log2 : Int) * 2 ^ (e - target m e) := by
          rw [exponents, zpow_add₀ (by norm_num)]
      _ ≤ x * 2 ^ (e - target m e) := mul_le_mul_of_nonneg_right bound scale.le
  exact_mod_cast large

private theorem target_le {m : Nat} {x : ℚ} {e : Int} (fine : e ≤ target m e) (above : m ≤ x)
    (range : x * 2 ^ e < 2 ^ 1023) : target m e ≤ 970 := by
  by_cases least : target m e = -1074
  · omega
  · have exponent : target m e = m.log2 + e - 52 := by
      unfold target at least ⊢
      omega
    have bound := leading_le fine above least
    have powers : (2 : ℚ) ^ (m.log2 + e : Int) < 2 ^ (1023 : Int) := by
      rw [zpow_add₀ (by norm_num)]
      exact (mul_le_mul_of_nonneg_right bound (by positivity)).trans_lt (by exact_mod_cast range)
    have := (zpow_lt_zpow_iff_right₀ (by norm_num)).1 powers
    omega

/-- The double is the one nearest to a number, among the multiples of a power of two that is no greater than the
number asks for. -/
def Nearest (y : Float) (a : ℚ) : Prop :=
  ∃ (r t : Int), rational? y = some ((r : ℚ) * 2 ^ t) ∧ |r - a / 2 ^ t| ≤ 1 / 2 ∧ -1074 ≤ t ∧
    (t = -1074 ∨ 2 ^ (t + 52) ≤ |a|)

namespace Nearest
variable {y : Float} {a : ℚ}

private theorem of_size {negative : Bool} {r : Nat} {t : Int} (value : rational? y = some (signed negative (r * 2 ^ t)))
    (near : |r - a / 2 ^ t| ≤ 1 / 2) (least : -1074 ≤ t) (leading : t = -1074 ∨ 2 ^ (t + 52) ≤ a) :
    Nearest y (signed negative a) := by
  have size : t = -1074 ∨ 2 ^ (t + 52) ≤ |signed negative a| := by
    rw [abs_signed]
    exact leading.imp_right fun large => large.trans (le_abs_self a)
  cases negative with
  | false => exact ⟨r, t, value, near, least, size⟩
  | true =>
    refine ⟨-r, t, ?_, ?_, least, size⟩
    · rw [value, signed_true, Int.cast_neg, Int.cast_natCast, neg_mul]
    · rwa [signed_true, neg_div, Int.cast_neg, Int.cast_natCast, sub_neg_eq_add, neg_add_eq_sub, abs_sub_comm]

theorem off_by (nearest : Nearest y a) {k : Int} (small : |a| < 2 ^ k) (range : -1021 ≤ k) :
    ∃ b, rational? y = some b ∧ |b - a| ≤ 2 ^ (k - 54) := by
  obtain ⟨r, t, value, near, -, exponent⟩ := nearest
  refine ⟨_, value, ?_⟩
  have scale : (0 : ℚ) < 2 ^ t := by positivity
  have t_le : t ≤ k - 53 := by
    rcases exponent with least | leading
    · omega
    · have := (zpow_lt_zpow_iff_right₀ (by norm_num : (1 : ℚ) < 2)).1 (leading.trans_lt small)
      omega
  calc |r * 2 ^ t - a| = |r - a / 2 ^ t| * 2 ^ t := by
        rw [← abs_of_pos scale, ← abs_mul, abs_of_pos scale, sub_mul, div_mul_cancel₀ _ scale.ne']
    _ ≤ 1 / 2 * 2 ^ (k - 53) := mul_le_mul near (zpow_le_zpow_right₀ (by norm_num) t_le) scale.le (by norm_num)
    _ = 2 ^ (k - 54) := by
      rw [show k - 53 = k - 54 + 1 by ring, zpow_add_one₀ (by norm_num)]
      ring

theorem eq_of_fits (nearest : Nearest y a) {n f : Int} (fits : a = n * 2 ^ f) (digits : |n| < 2 ^ 53)
    (least : -1074 ≤ f) : rational? y = some a := by
  obtain ⟨r, t, value, near, -, exponent⟩ := nearest
  have t_le : t ≤ f := by
    rcases exponent with lowest | leading
    · omega
    · have size : |a| < 2 ^ (53 + f) := by
        rw [fits, abs_mul, abs_of_pos (by positivity : (0 : ℚ) < 2 ^ f), zpow_add₀ (by norm_num)]
        exact mul_lt_mul_of_pos_right (by exact_mod_cast digits) (by positivity)
      have := (zpow_lt_zpow_iff_right₀ (by norm_num : (1 : ℚ) < 2)).1 (leading.trans_lt size)
      omega
  obtain ⟨up, up_eq⟩ := Int.eq_ofNat_of_zero_le (sub_nonneg.2 t_le)
  have whole : a / 2 ^ t = (n * 2 ^ up : Int) := by
    rw [fits, mul_div_assoc, ← zpow_sub₀ (by norm_num), up_eq]
    push_cast
    rfl
  have same : r = n * 2 ^ up := by
    rw [whole, ← Int.cast_sub, ← Int.cast_abs] at near
    have : |r - n * 2 ^ up| < 1 := by
      have : ((|r - n * 2 ^ up| : Int) : ℚ) < 1 := near.trans_lt (by norm_num)
      exact_mod_cast this
    have := Int.abs_lt_one_iff.1 this
    omega
  rw [value, same, ← whole, div_mul_cancel₀ _ (by positivity)]

end Nearest

private theorem rational?_carried (negative : Bool) {r : Nat} {t : Int} (bound : r ≤ 2 ^ 53) (least : -1074 ≤ t)
    (greatest : t ≤ 970) (leading : 2 ^ 52 ≤ r ∨ t = -1074) :
    rational? (.ofModel (.pack (if positive : 0 < r then
        if r < 2 ^ 53 then .finite (signOf? negative) r t positive
        else .finite (signOf? negative) (2 ^ 52) (t + 1) (by decide)
      else .zero (signOf? negative)))) =
      some (signed negative (r * 2 ^ t)) := by
  by_cases full : r < 2 ^ 53
  · have canonical : (Binary.finite negative r t).Canonical := ⟨full, least, by omega, leading⟩
    have packed := rational?_ofParts canonical
    rw [ofParts, Binary.unpacked] at packed
    simp only [if_pos full]
    exact packed
  · obtain rfl : r = 2 ^ 53 := by omega
    have canonical : (Binary.finite negative (2 ^ 52) (t + 1)).Canonical :=
      ⟨by decide, by omega, by omega, .inl le_rfl⟩
    have packed := rational?_ofParts canonical
    have carried : ((2 ^ 52 : Nat) : ℚ) * 2 ^ (t + 1) = (2 ^ 53 : Nat) * 2 ^ t := by
      rw [zpow_add₀ (by norm_num)]
      push_cast
      ring
    rw [ofParts, Binary.unpacked, dif_pos (by decide), carried] at packed
    rw [dif_pos (by decide), if_neg full, packed]

theorem Tells.between {m : Nat} {accuracy : Accuracy} {x : ℚ}
    (told : Tells (.ofMantissaAndAccuracy m accuracy) x) : (m : ℚ) ≤ x ∧ x < m + 1 := by
  have mantissa : (ExtendedMantissa.ofMantissaAndAccuracy m accuracy).mantissa = m := by
    cases accuracy with
    | exact => rfl
    | inexact order => cases order <;> rfl
  have bounds := told.bounds
  rwa [mantissa] at bounds

private theorem shifted_of_fine {m : Nat} {e : Int} (fine : e ≤ target m e) (accuracy : Accuracy) :
    ∃ shift, shiftToTargetExponent Format.binary64 m e accuracy =
        (ExtendedMantissa.ofMantissaAndAccuracy m accuracy >>> shift, target m e) ∧
      ∀ x : ℚ, x * 2 ^ (e - target m e) = x / 2 ^ shift := by
  obtain ⟨shift, shift_eq⟩ := Int.eq_ofNat_of_zero_le (sub_nonneg.2 fine)
  refine ⟨shift, ?_, fun x => ?_⟩
  · rw [shiftToTargetExponent_eq, shift_eq, Int.toNat_natCast]
    congr 1
    omega
  · rw [← neg_sub, shift_eq, zpow_neg, zpow_natCast, div_eq_mul_inv]

/-- A significand, told exactly or by what is known of the rest, is rounded to the nearest double. -/
theorem nearest_round (negative : Bool) {m : Nat} {e : Int} {accuracy : Accuracy} {x : ℚ}
    (told : Tells (.ofMantissaAndAccuracy m accuracy) x) (fine : e ≤ target m e) (range : x * 2 ^ e < 2 ^ 1023) :
    Nearest (.ofModel (.pack (roundWithAccuracy Format.binary64 (signOf? negative) m e accuracy)))
      (signed negative (x * 2 ^ e)) := by
  obtain ⟨above, below⟩ := told.between
  obtain ⟨shift, first, scaled⟩ := shifted_of_fine fine accuracy
  have near := (told.shiftRight shift).near
  generalize rounded : ((ExtendedMantissa.ofMantissaAndAccuracy m accuracy) >>> shift).roundedMantissa = r at near
  rw [← scaled] at near
  obtain ⟨near_low, near_high⟩ := abs_le.1 near
  have least : -1074 ≤ target m e := le_max_right _ _
  have greatest : target m e ≤ 970 := target_le fine above range
  have bound : r ≤ 2 ^ 53 := by
    have : (r : ℚ) < 2 ^ 53 + 1 := by linarith [scaled_lt e below]
    exact Nat.lt_succ_iff.1 (by exact_mod_cast this)
  -- Unless the exponent is the least there is, the significand keeps its leading bit, also after rounding.
  have leading : target m e = -1074 ∨ 2 ^ 52 ≤ x * 2 ^ (e - target m e) := by
    by_cases normal : target m e = -1074
    · exact .inl normal
    · exact .inr (le_scaled fine above normal)
  have value : rational? (.ofModel (.pack (roundWithAccuracy Format.binary64 (signOf? negative) m e accuracy))) =
      some (signed negative (r * 2 ^ target m e)) := by
    rw [roundWithAccuracy_eq _ first rounded least bound]
    refine rational?_carried negative bound least greatest (leading.symm.imp_left fun large => ?_)
    have : (2 : ℚ) ^ 52 < r + 1 := by linarith
    exact Nat.lt_succ_iff.1 (by exact_mod_cast this)
  have quotient : x * 2 ^ e / 2 ^ target m e = x * 2 ^ (e - target m e) := by
    rw [zpow_sub₀ (by norm_num), mul_div_assoc]
  have size : target m e = -1074 ∨ 2 ^ (target m e + 52) ≤ x * 2 ^ e := by
    refine leading.imp_right fun large => ?_
    rw [← quotient, le_div_iff₀ (by positivity)] at large
    rw [add_comm, zpow_add₀ (by norm_num)]
    exact_mod_cast large
  rw [← quotient] at near
  exact .of_size value near least size

private theorem nearest_zero (negative : Bool) : Nearest (.ofModel (.pack (.zero (signOf? negative)))) 0 := by
  have canonical : (Binary.finite negative 0 (-1074)).Canonical := ⟨by decide, le_rfl, by decide, .inr rfl⟩
  have packed := rational?_ofParts canonical
  rw [ofParts, Binary.unpacked, dif_neg (lt_irrefl 0), Nat.cast_zero, zero_mul, signed_zero] at packed
  refine ⟨0, -1074, ?_, ?_, le_rfl, .inl rfl⟩
  · rw [packed, Int.cast_zero, zero_mul]
  · norm_num

private theorem tells_exact (m : Nat) : Tells (.ofMantissaAndAccuracy m .exact) m := rfl

private theorem signOf?_mul (c d : Bool) : signOf? c * signOf? d = signOf? (c ^^ d) := by
  cases c <;> cases d <;> rfl

private theorem signOf?_div (c d : Bool) : signOf? c / signOf? d = signOf? (c ^^ d) := by
  cases c <;> cases d <;> rfl

private theorem fine_mul {c d : Bool} {m n : Nat} {e f : Int} (left : (Binary.finite c m e).Canonical)
    (right : (Binary.finite d n f).Canonical) (m_pos : 0 < m) (n_pos : 0 < n) : e + f ≤ target (m * n) (e + f) := by
  obtain ⟨-, e_least, -, m_leading⟩ := left
  obtain ⟨-, f_least, -, n_leading⟩ := right
  by_cases leading : 2 ^ 52 ≤ m * n
  · have := (Nat.le_log2 (Nat.mul_pos m_pos n_pos).ne').2 leading
    unfold target
    omega
  · have e_eq : e = -1074 := m_leading.resolve_left fun large => leading (large.trans (Nat.le_mul_of_pos_right m n_pos))
    have f_eq : f = -1074 := n_leading.resolve_left fun large => leading (large.trans (Nat.le_mul_of_pos_left n m_pos))
    unfold target
    omega

/-- The product of two doubles is the double nearest to the product of their numbers. -/
theorem nearest_mul {x y : Float} {a b : ℚ} (left : rational? x = some a) (right : rational? y = some b)
    (range : |a * b| < 2 ^ 1023) : Nearest (x * y) (a * b) := by
  obtain ⟨c, m, e, x_parts, x_canonical, rfl⟩ := parts_of_rational left
  obtain ⟨d, n, f, y_parts, y_canonical, rfl⟩ := parts_of_rational right
  change Nearest (.ofModel (.pack (UnpackedFloat.mul Format.binary64 x.toModel.unpack y.toModel.unpack))) _
  rw [unpack_eq, unpack_eq, x_parts, y_parts, Binary.unpacked, Binary.unpacked]
  split
  · rename_i m_pos
    split
    · rename_i n_pos
      have sizes : (m : ℚ) * 2 ^ e * (n * 2 ^ f) = (m * n : Nat) * 2 ^ (e + f) := by
        rw [zpow_add₀ (by norm_num)]
        push_cast
        ring
      rw [signed_mul, sizes] at range ⊢
      rw [abs_signed, abs_of_nonneg (by positivity)] at range
      rw [UnpackedFloat.mul, signOf?_mul]
      exact nearest_round _ (tells_exact _) (fine_mul x_canonical y_canonical m_pos n_pos) range
    · rename_i n_zero
      obtain rfl := Nat.eq_zero_of_not_pos n_zero
      rw [Nat.cast_zero, zero_mul, signed_zero, mul_zero, UnpackedFloat.mul, signOf?_mul]
      exact nearest_zero _
  · rename_i m_zero
    obtain rfl := Nat.eq_zero_of_not_pos m_zero
    rw [Nat.cast_zero, zero_mul, signed_zero, zero_mul]
    split <;> rw [UnpackedFloat.mul, signOf?_mul] <;> exact nearest_zero _

private theorem tells_quotient (m : Nat) {n : Nat} (positive : 0 < n) :
    Tells (.ofMantissaAndAccuracy (m / n) (accuracyOfFraction (m % n) n)) ((m : ℚ) / n) := by
  have n_pos : (0 : ℚ) < n := by exact_mod_cast positive
  have parts : (m : ℚ) = n * (m / n : Nat) + (m % n : Nat) := by exact_mod_cast (Nat.div_add_mod m n).symm
  have rest_lt : ((m % n : Nat) : ℚ) / n < 1 := by
    rw [div_lt_one n_pos]
    exact_mod_cast Nat.mod_lt m positive
  have quotient : (m : ℚ) / n = (m / n : Nat) + (m % n : Nat) / n := by
    rw [parts, add_div, mul_div_cancel_left₀ _ n_pos.ne']
  have half (rest : Nat) : (rest : ℚ) / n < 1 / 2 ↔ 2 * rest < n := by
    rw [div_lt_div_iff₀ n_pos (by norm_num), mul_comm, one_mul]
    exact_mod_cast Iff.rfl
  have half_lt (rest : Nat) : 1 / 2 < (rest : ℚ) / n ↔ n < 2 * rest := by
    rw [div_lt_div_iff₀ (by norm_num) n_pos, one_mul, mul_comm]
    exact_mod_cast Iff.rfl
  unfold accuracyOfFraction
  rw [quotient]
  by_cases zero : m % n = 0
  · rw [if_pos zero, zero, Nat.cast_zero, zero_div, add_zero]
    exact tells_exact _
  · have rest_pos : (0 : ℚ) < (m % n : Nat) / n := div_pos (by exact_mod_cast Nat.pos_of_ne_zero zero) n_pos
    rw [if_neg zero]
    rcases lt_trichotomy (2 * (m % n)) n with less | same | more
    · rw [compare_lt_iff_lt.2 less]
      exact ⟨lt_add_of_pos_right _ rest_pos, (add_lt_add_iff_left _).2 ((half _).2 less)⟩
    · rw [compare_eq_iff_eq.2 same]
      have not_less := mt (half (m % n)).1 same.not_lt
      have not_more := mt (half_lt (m % n)).1 same.not_gt
      exact congrArg _ (le_antisymm (not_lt.1 not_more) (not_lt.1 not_less))
    · rw [compare_gt_iff_gt.2 more]
      exact ⟨(add_lt_add_iff_left _).2 ((half_lt _).2 more), (add_lt_add_iff_left _).2 rest_lt⟩

private theorem fine_div {m n : Nat} {e f q : Int} (m_pos : 0 < m) (n_pos : 0 < n)
    (q_eq : q = min (e - f) (max (m.log2 + e - (n.log2 + f) - 53) (-1074))) :
    q ≤ target (m <<< (e - f - q).toNat / n) q := by
  by_cases least : q ≤ -1074
  · exact least.trans (le_max_right _ _)
  · obtain ⟨shift, shift_eq⟩ := Int.eq_ofNat_of_zero_le (by omega : 0 ≤ e - f - q)
    rw [shift_eq, Int.toNat_natCast]
    have digits : 52 + (n.log2 + 1) ≤ m.log2 + shift := by omega
    have large : 2 ^ 52 ≤ m <<< shift / n := by
      rw [Nat.le_div_iff_mul_le n_pos, Nat.shiftLeft_eq]
      calc 2 ^ 52 * n ≤ 2 ^ 52 * 2 ^ (n.log2 + 1) := Nat.mul_le_mul_left _ Nat.lt_log2_self.le
        _ = 2 ^ (52 + (n.log2 + 1)) := (pow_add _ _ _).symm
        _ ≤ 2 ^ (m.log2 + shift) := Nat.pow_le_pow_right (by decide) digits
        _ = 2 ^ m.log2 * 2 ^ shift := pow_add _ _ _
        _ ≤ m * 2 ^ shift := Nat.mul_le_mul_right _ (Nat.log2_self_le m_pos.ne')
    have := (Nat.le_log2 (by omega)).2 large
    unfold target
    omega

theorem shiftLeft_mul (m : Nat) {low e : Int} (below : low ≤ e) :
    (m : ℚ) * 2 ^ e = (m <<< (e - low).toNat : Nat) * 2 ^ low := by
  obtain ⟨shift, shift_eq⟩ := Int.eq_ofNat_of_zero_le (sub_nonneg.2 below)
  have split : (2 : ℚ) ^ e = 2 ^ shift * 2 ^ low := by
    rw [← zpow_natCast, ← zpow_add₀ (by norm_num), ← shift_eq, sub_add_cancel]
  rw [split, shift_eq, Int.toNat_natCast, Nat.shiftLeft_eq, Nat.cast_mul, Nat.cast_pow, Nat.cast_ofNat, mul_assoc]

theorem nearest_div {x y : Float} {a b : ℚ} (left : rational? x = some a) (right : rational? y = some b)
    (divisor : b ≠ 0) (range : |a / b| < 2 ^ 1023) : Nearest (x / y) (a / b) := by
  obtain ⟨c, m, e, x_parts, rfl⟩ := rational?_eq_some_iff.1 left
  obtain ⟨d, n, f, y_parts, rfl⟩ := rational?_eq_some_iff.1 right
  have n_pos : 0 < n := by
    refine Nat.pos_of_ne_zero ?_
    rintro rfl
    rw [Nat.cast_zero, zero_mul, signed_zero] at divisor
    exact divisor rfl
  change Nearest (.ofModel (.pack (UnpackedFloat.div Format.binary64 x.toModel.unpack y.toModel.unpack))) _
  rw [unpack_eq, unpack_eq, x_parts, y_parts, Binary.unpacked, Binary.unpacked, dif_pos n_pos]
  split
  · rename_i m_pos
    have spec : Format.binary64.targetExponent (totalExponent m e - totalExponent n f) =
        max (m.log2 + e - (n.log2 + f) - 53) (-1074) := by
      change max (((m.log2 : Int) + 1 + e) - (n.log2 + 1 + f) - 53) (-1074) = _
      congr 2
      ring
    generalize q_eq : min (e - f) (max (m.log2 + e - (n.log2 + f) - 53) (-1074)) = q at *
    have core : divCore Format.binary64 m e n f =
        (m <<< (e - f - q).toNat / n, q, accuracyOfFraction (m <<< (e - f - q).toNat % n) n) := by
      rw [divCore, spec, q_eq]
    have sizes : (m : ℚ) * 2 ^ e / (n * 2 ^ f) = (m <<< (e - f - q).toNat : Nat) / n * 2 ^ q := by
      rw [mul_div_mul_comm, ← zpow_sub₀ (by norm_num), div_mul_eq_mul_div, shiftLeft_mul m (by omega : q ≤ e - f),
        div_mul_eq_mul_div]
    have size : (0 : ℚ) ≤ (m <<< (e - f - q).toNat : Nat) / n * 2 ^ q :=
      mul_nonneg (div_nonneg (Nat.cast_nonneg _) (Nat.cast_nonneg _)) (zpow_nonneg (by decide) _)
    rw [signed_div, sizes] at range ⊢
    rw [abs_signed, abs_of_nonneg size] at range
    rw [UnpackedFloat.div, core, signOf?_div]
    have told := tells_quotient (m <<< (e - f - q).toNat) n_pos
    have fine := fine_div m_pos n_pos q_eq.symm
    exact nearest_round _ told fine range
  · rename_i m_zero
    obtain rfl := Nat.eq_zero_of_not_pos m_zero
    rw [Nat.cast_zero, zero_mul, signed_zero, zero_div, UnpackedFloat.div, signOf?_div]
    exact nearest_zero _

theorem Nearest.of_parts {negative : Bool} {m : Nat} {e : Int}
    (canonical : (Binary.finite negative m e).Canonical) :
    Nearest (ofParts negative m e) (signed negative (m * 2 ^ e)) := by
  have value := rational?_ofParts canonical
  obtain ⟨-, least, -, leading⟩ := canonical
  have scale : (0 : ℚ) < 2 ^ e := by positivity
  have size : e = -1074 ∨ (2 : ℚ) ^ (e + 52) ≤ m * 2 ^ e := by
    refine leading.symm.imp_right fun large => ?_
    rw [add_comm, zpow_add₀ (by norm_num)]
    exact mul_le_mul_of_nonneg_right (by exact_mod_cast large) scale.le
  refine .of_size value ?_ least size
  rw [mul_div_cancel_right₀ _ scale.ne', sub_self, abs_zero]
  norm_num

private theorem nearest_rounded (negative : Bool) {m : Nat} {e : Int} (positive : 0 < m)
    (range : m * 2 ^ e < (2 : ℚ) ^ 1023) :
    Nearest (.ofModel (.pack (UnpackedFloat.round Format.binary64 (signOf? negative) m e))) (signed negative (m * 2 ^ e)) := by
  generalize shift_eq : (e - target m e).toNat = shift
  have form : UnpackedFloat.round Format.binary64 (signOf? negative) m e =
      roundWithAccuracy Format.binary64 (signOf? negative) (m <<< shift) (e - shift) .exact := by
    rw [UnpackedFloat.round, targetExponent_eq, decreaseExponent, shift_eq]
  have log : (m <<< shift).log2 = m.log2 + shift := by
    rw [Nat.log2_eq_iff (by rw [Nat.shiftLeft_eq]; positivity), Nat.shiftLeft_eq, Nat.add_right_comm, pow_add, pow_add]
    exact ⟨Nat.mul_le_mul_right _ (Nat.log2_self_le positive.ne'), mul_lt_mul_of_pos_right Nat.lt_log2_self (by positivity)⟩
  have fine : e - shift ≤ target (m <<< shift) (e - shift) := by
    unfold target at shift_eq ⊢
    omega
  have size : (m : ℚ) * 2 ^ e = (m <<< shift : Nat) * 2 ^ (e - shift) := by
    have aligned := shiftLeft_mul m (by omega : e - shift ≤ e)
    rwa [sub_sub_cancel, Int.toNat_natCast] at aligned
  rw [size] at range ⊢
  rw [form]
  exact nearest_round _ (tells_exact _) fine range

theorem nearest_normalize (n e : Int) (range : |(n : ℚ) * 2 ^ e| < 2 ^ 1023) :
    Nearest (.ofModel (.pack (UnpackedFloat.normalize Format.binary64 n e .positive))) (n * 2 ^ e) := by
  have scale : (0 : ℚ) < 2 ^ e := by positivity
  rw [abs_mul, abs_of_pos scale] at range
  unfold UnpackedFloat.normalize
  rcases lt_trichotomy n 0 with below | rfl | above
  · obtain ⟨m, rfl⟩ : ∃ m : Nat, n = -m := ⟨n.natAbs, by omega⟩
    rw [compare_lt_iff_lt.2 below]
    rw [Int.cast_neg, Int.cast_natCast, abs_neg, Nat.abs_cast] at range
    have rounded := nearest_rounded true (by omega : 0 < m) range
    rw [Int.cast_neg, Int.cast_natCast, neg_mul, Int.neg_neg]
    exact rounded
  · rw [Int.cast_zero, zero_mul]
    exact nearest_zero false
  · obtain ⟨m, rfl⟩ : ∃ m : Nat, n = m := ⟨n.natAbs, by omega⟩
    rw [compare_gt_iff_gt.2 above]
    rw [Int.cast_natCast, Nat.abs_cast] at range
    exact nearest_rounded false (by omega) range

theorem signed_scale (negative : Bool) (a b : ℚ) : signed negative (a * b) = signed negative a * b := by
  cases negative <;> simp

theorem apply_signOf? (negative : Bool) (n : Nat) : (((signOf? negative).apply n : Int) : ℚ) = signed negative n := by
  cases negative
  · rfl
  · exact Int.cast_neg _

theorem nearest_sub {x y : Float} {a b : ℚ} (left : rational? x = some a) (right : rational? y = some b)
    (range : |a - b| < 2 ^ 1023) : Nearest (x - y) (a - b) := by
  obtain ⟨c, m, e, x_parts, x_canonical, rfl⟩ := parts_of_rational left
  obtain ⟨d, n, f, y_parts, y_canonical, rfl⟩ := parts_of_rational right
  change Nearest (.ofModel (.pack (UnpackedFloat.sub Format.binary64 x.toModel.unpack y.toModel.unpack))) _
  rw [unpack_eq, unpack_eq, x_parts, y_parts]
  by_cases m_pos : 0 < m
  · by_cases n_pos : 0 < n
    · rw [Binary.unpacked, Binary.unpacked, dif_pos m_pos, dif_pos n_pos]
      have sizes : signed c (m * 2 ^ e) - signed d (n * 2 ^ f) =
          ((signOf? c).apply (m <<< (e - min e f).toNat : Nat) - (signOf? d).apply (n <<< (f - min e f).toNat : Nat) : Int) *
            2 ^ min e f := by
        rw [shiftLeft_mul m (min_le_left e f), shiftLeft_mul n (min_le_right e f), Int.cast_sub, apply_signOf?,
          apply_signOf?, signed_scale, signed_scale, sub_mul]
      rw [sizes] at range ⊢
      exact nearest_normalize _ _ range
    · obtain rfl := Nat.eq_zero_of_not_pos n_pos
      rw [Nat.cast_zero, zero_mul, signed_zero, sub_zero]
      have exact_parts := Nearest.of_parts x_canonical
      rw [ofParts, Binary.unpacked, dif_pos m_pos] at exact_parts
      rw [Binary.unpacked, Binary.unpacked, dif_pos m_pos, dif_neg (lt_irrefl 0)]
      exact exact_parts
  · obtain rfl := Nat.eq_zero_of_not_pos m_pos
    rw [Nat.cast_zero, zero_mul, signed_zero, zero_sub]
    by_cases n_pos : 0 < n
    · have opposite : (Binary.finite (!d) n f).Canonical := y_canonical
      have exact_parts := Nearest.of_parts opposite
      rw [ofParts, Binary.unpacked, dif_pos n_pos] at exact_parts
      rw [Binary.unpacked, Binary.unpacked, dif_neg (lt_irrefl 0), dif_pos n_pos]
      cases d
      · exact exact_parts
      · rw [signed_true, neg_neg]
        exact exact_parts
    · obtain rfl := Nat.eq_zero_of_not_pos n_pos
      rw [Nat.cast_zero, zero_mul, signed_zero, neg_zero, Binary.unpacked, Binary.unpacked]
      cases c <;> cases d
      · exact nearest_zero false
      · exact nearest_zero false
      · exact nearest_zero true
      · exact nearest_zero false

end Screener.Decimal
