import Screener.Proofs.Decimal.Rounding

/-! Whole numbers among the doubles, and the whole number next to a double. -/
namespace Screener.Decimal
open Float.Model (Format UnpackedFloat)
open Float.Model.UnpackedFloat

theorem rational?_zero : rational? 0.0 = some 0 := by
  have parts : Binary.ofFloat 0.0 = .finite false 0 (-1074) := by decide
  rw [rational?, parts, Binary.value?, Nat.cast_zero, zero_mul, signed_zero]

theorem rational?_abs {x : Float} {a : ℚ} (value : rational? x = some a) : rational? x.abs = some |a| := by
  obtain ⟨c, m, e, parts, canonical, rfl⟩ := parts_of_rational value
  have size : (0 : ℚ) ≤ m * 2 ^ e := by positivity
  rw [abs_signed, abs_of_nonneg size]
  have unsigned : (Binary.finite false m e).Canonical := canonical
  have packed := rational?_ofParts unsigned
  change rational? (.ofModel (.pack x.toModel.unpack.abs)) = _
  rw [unpack_eq, parts, Binary.unpacked]
  rw [ofParts, Binary.unpacked] at packed
  split at packed
  · rename_i positive
    rw [dif_pos positive]
    exact packed
  · rename_i zero
    rw [dif_neg zero]
    exact packed

theorem rational?_ofNat {n : Nat} (small : n < 2 ^ 53) : rational? (Float.ofNat n) = some (n : ℚ) := by
  have one : rational? (ofParts false (2 ^ 52) (-52)) = some 1 := by
    rw [rational?_ofParts ⟨by decide, by decide, by decide, .inl le_rfl⟩, signed_false]
    norm_num
  have counted : n.toUInt64.toNat = n := Nat.mod_eq_of_lt (by omega)
  have cast : Float.ofNat n = .ofModel (.pack (UnpackedFloat.normalize Format.binary64 n.toUInt64.toNat 0 .positive)) *
      ofParts false (2 ^ 52) (-52) := dif_pos ⟨small, by decide⟩
  have large : (2 : ℚ) ^ 53 < 2 ^ 1023 := pow_lt_pow_right₀ (by norm_num) (by decide)
  have range : |(n : ℚ)| < 2 ^ 1023 := by
    rw [Nat.abs_cast]
    exact lt_trans (by exact_mod_cast small) large
  have whole : (n : ℚ) = (n : Int) * 2 ^ (0 : Int) := by simp
  have digits : |(n : Int)| < 2 ^ 53 := by
    rw [Nat.abs_cast]
    exact_mod_cast small
  rw [cast, counted]
  have first := (nearest_normalize n 0 (by rwa [← whole])).eq_of_fits rfl digits (by decide)
  rw [← whole] at first
  have second := nearest_mul first one (by rwa [mul_one])
  rw [mul_one] at second
  exact second.eq_of_fits whole digits (by decide)

theorem whole?_eq_some_iff {x : Float} {n : Nat} : whole? x = some n ↔ rational? x = some (n : ℚ) := by
  unfold whole? rational?
  cases Binary.ofFloat x with
  | infinite negative => simp [Binary.value?]
  | undefined => simp [Binary.value?]
  | finite negative significand exponent =>
    dsimp only [Binary.value?]
    have scale : (0 : ℚ) < 2 ^ exponent := by positivity
    split
    · rename_i below
      obtain ⟨rfl, nonzero⟩ : negative = true ∧ significand ≠ 0 := by simpa using below
      have size : (0 : ℚ) < significand * 2 ^ exponent := by positivity
      have n_nonneg : (0 : ℚ) ≤ n := by positivity
      constructor
      · intro impossible
        cases impossible
      · intro value
        rw [Option.some.injEq, signed_true] at value
        linarith
    · rename_i above
      have unsigned : signed negative (significand * 2 ^ exponent) = significand * 2 ^ exponent := by
        cases negative with
        | false => rfl
        | true =>
          obtain rfl : significand = 0 := by simpa using above
          simp
      rw [unsigned, Option.some.injEq]
      split
      · rename_i exponent_nonneg
        obtain ⟨shift, rfl⟩ := Int.eq_ofNat_of_zero_le exponent_nonneg
        rw [Option.some.injEq, Int.toNat_natCast, zpow_natCast]
        exact_mod_cast Iff.rfl
      · rename_i exponent_neg
        obtain ⟨shift, shift_eq⟩ := Int.eq_ofNat_of_zero_le (by omega : 0 ≤ -exponent)
        obtain rfl : exponent = -shift := by omega
        have unit_pos : 0 < 2 ^ shift := by positivity
        have quotient : (significand : ℚ) * 2 ^ (-shift : Int) = n ↔ significand = n * 2 ^ shift := by
          rw [zpow_neg, zpow_natCast, ← div_eq_mul_inv, div_eq_iff (by positivity)]
          exact_mod_cast Iff.rfl
        rw [quotient, neg_neg, Int.toNat_natCast]
        change (if significand % 2 ^ shift = 0 then some (significand / 2 ^ shift) else none) = some n ↔ _
        split
        · rename_i divides
          rw [Option.some.injEq, Nat.div_eq_iff_eq_mul_left unit_pos (Nat.dvd_of_mod_eq_zero divides)]
        · rename_i not_divides
          constructor
          · intro impossible
            cases impossible
          · rintro rfl
            exact absurd (Nat.mul_mod_left _ _) not_divides

/-- The whole number next to a double is the one that its size, plus a half, is rounded down to. -/
theorem nearestWhole_eq {x : Float} {a : ℚ} {n : Nat} (value : rational? x = some a) (low : n ≤ |a| + 1 / 2)
    (high : |a| + 1 / 2 < n + 1) : nearestWhole x = n := by
  obtain ⟨negative, significand, exponent, parts, rfl⟩ := rational?_eq_some_iff.1 value
  have size : (0 : ℚ) ≤ significand * 2 ^ exponent := by positivity
  rw [abs_signed, abs_of_nonneg size] at low high
  unfold nearestWhole
  rw [parts]
  dsimp only
  split
  · rename_i exponent_nonneg
    obtain ⟨shift, rfl⟩ := Int.eq_ofNat_of_zero_le exponent_nonneg
    rw [zpow_natCast] at low high
    rw [Int.toNat_natCast]
    change significand * 2 ^ shift = n
    have not_less : (n : ℚ) < (significand * 2 ^ shift + 1 : Nat) := by
      push_cast
      linarith
    have not_more : ((significand * 2 ^ shift : Nat) : ℚ) < (n + 1 : Nat) := by
      push_cast
      linarith
    rw [Nat.cast_lt] at not_less not_more
    omega
  · rename_i exponent_neg
    obtain ⟨shift, shift_eq⟩ := Int.eq_ofNat_of_zero_le (by omega : 0 ≤ -exponent)
    obtain rfl : exponent = -shift := by omega
    rw [zpow_neg, zpow_natCast, ← div_eq_mul_inv] at low high
    rw [neg_neg, Int.toNat_natCast]
    change (2 * significand + 2 ^ shift) / (2 * 2 ^ shift) = n
    have unit_pos : (0 : ℚ) < 2 ^ shift := by positivity
    have above : n * (2 * 2 ^ shift) ≤ 2 * significand + 2 ^ shift := by
      have : ((n : ℚ) - 1 / 2) * 2 ^ shift ≤ significand := (le_div_iff₀ unit_pos).1 (by linarith)
      have : ((n * (2 * 2 ^ shift) : Nat) : ℚ) ≤ (2 * significand + 2 ^ shift : Nat) := by
        push_cast
        linarith
      exact Nat.cast_le.1 this
    have below : 2 * significand + 2 ^ shift < (n + 1) * (2 * 2 ^ shift) := by
      have : (significand : ℚ) < (n + 1 / 2) * 2 ^ shift := (div_lt_iff₀ unit_pos).1 (by linarith)
      have : ((2 * significand + 2 ^ shift : Nat) : ℚ) < ((n + 1) * (2 * 2 ^ shift) : Nat) := by
        push_cast
        linarith
      exact Nat.cast_lt.1 this
    exact Nat.div_eq_of_lt_le above below

end Screener.Decimal
