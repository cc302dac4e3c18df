import Screener.Filter.Document
import Screener.Proofs.Decimal.Whole
import Screener.Proofs.Filter.Checked

/-! Widths of bands. A width is written as a double and kept in whole hundredths; rounding never gets in the way, so
each number of hundredths is read back from its double. -/
namespace Screener.Filter
open Decimal

private theorem rational?_of_between {x y : Float} {b : ℚ} (positive : 0.0 < x) (most : x ≤ y)
    (value : rational? y = some b) : ∃ a, rational? x = some a := by
  obtain ⟨d, n, f, y_parts, -⟩ := rational?_eq_some_iff.1 value
  have zero_parts : Binary.ofFloat 0.0 = .finite false 0 (-1074) := by decide
  change decide (((0.0 : Float).toModel.unpack.compare x.toModel.unpack == some .lt) = true) = true at positive
  change decide ((x.toModel.unpack.compare y.toModel.unpack).any (·.isLE) = true) = true at most
  rw [unpack_eq, unpack_eq, zero_parts, decide_eq_true_iff] at positive
  rw [unpack_eq, unpack_eq, y_parts, decide_eq_true_iff] at most
  unfold rational?
  cases parts : Binary.ofFloat x with
  | finite c m e => exact ⟨_, rfl⟩
  | infinite c =>
    rw [parts] at positive most
    cases c with
    | false =>
      rw [Binary.unpacked, Binary.unpacked] at most
      split at most <;> cases d <;> cases most
    | true => cases positive
  | undefined =>
    rw [parts] at positive
    cases positive

private theorem rational?_hundred : rational? 100.0 = some 100 := by
  have same : (100.0 : Float) = Float.ofNat 100 := by decide
  rw [same]
  exact rational?_ofNat (by decide)

private theorem pow_range {a : ℚ} (small : a < 2 ^ 53) : a < 2 ^ 1023 :=
  small.trans (pow_lt_pow_right₀ (by norm_num) (by decide))

private theorem rational?_bandWidth {n : Nat} (small : n < 2 ^ 32) :
    ∃ q, rational? (Indicator.bandWidth n) = some q ∧ |q - n / 100| ≤ 2 ^ (-28 : Int) := by
  have n_value := rational?_ofNat (by omega : n < 2 ^ 53)
  have hundred : rational? (Float.ofNat 100) = some 100 := rational?_ofNat (by decide)
  have n_lt : (n : ℚ) < 2 ^ 32 := by exact_mod_cast small
  have size : |(n : ℚ) / 100| < 2 ^ 26 := by
    rw [abs_of_nonneg (by positivity)]
    linarith
  have nearest := nearest_div n_value hundred (by norm_num) (pow_range (by linarith))
  exact nearest.off_by (k := 26) (by exact_mod_cast size) (by decide)

private theorem rational?_hundredfold {x : Float} {q : ℚ} (value : rational? x = some q) (nonneg : 0 ≤ q)
    (small : q * 100 < 2 ^ 33) : ∃ s, rational? (x * 100.0) = some s ∧ |s - q * 100| ≤ 2 ^ (-21 : Int) := by
  have size : |q * 100| < 2 ^ 33 := by
    rwa [abs_of_nonneg (by positivity)]
  have nearest := nearest_mul value rational?_hundred (pow_range (by linarith))
  exact nearest.off_by (k := 33) (by exact_mod_cast size) (by decide)

private theorem rational?_tolerance : rational? Document.hundredthsTolerance = some (4722366482869645 / 2 ^ 72) := by
  have parts : Binary.ofFloat Document.hundredthsTolerance = .finite false 4722366482869645 (-72) := by decide
  rw [rational?, parts, Binary.value?, signed_false]
  norm_num

private theorem rational?_distance {y : Float} {s : ℚ} {n : Nat} {k : Int} (value : rational? y = some s)
    (small : n < 2 ^ 53) (near : |s - n| < 2 ^ k) (low : -1021 ≤ k) (high : k ≤ 53) :
    ∃ d, rational? (y - Float.ofNat n).abs = some d ∧ |d - (|s - n|)| ≤ 2 ^ (k - 54) := by
  have bound : (2 : ℚ) ^ k ≤ 2 ^ (53 : Int) := zpow_le_zpow_right₀ (by norm_num) high
  have range : |s - n| < 2 ^ 53 := by exact_mod_cast near.trans_le bound
  have nearest := nearest_sub value (rational?_ofNat small) (pow_range range)
  obtain ⟨d, d_value, off⟩ := nearest.off_by near low
  exact ⟨|d|, rational?_abs d_value, (abs_abs_sub_abs_le _ _).trans off⟩

private theorem mostHundredths_cast :
    (Document.mostHundredths : ℚ) = 4294967295 := by norm_num [Document.mostHundredths]

/-- The double is a width of so many hundredths, as far as doubles tell. -/
structure IsWidth (x : Float) (n : Nat) : Prop where
  positive : 0.0 < x
  most : x ≤ Float.ofNat 4294967295 / 100.0
  range : 1 ≤ n ∧ n ≤ 4294967295
  near : (x * 100.0 - Float.ofNat n).abs ≤ 1e-6

theorem widest : Float.ofNat Document.mostHundredths / 100.0 = Indicator.bandWidth Document.mostHundredths := by
  have hundred : (100.0 : Float) = Float.ofNat 100 := by decide
  rw [hundred]
  rfl

private theorem rational?_scaled {x : Float} (positive : 0.0 < x)
    (most : x ≤ Float.ofNat Document.mostHundredths / 100.0) :
    ∃ s, rational? (x * 100.0) = some s ∧ |s| < Document.mostHundredths + 1 / 4 := by
  obtain ⟨b, b_value, b_near⟩ := rational?_bandWidth (n := Document.mostHundredths) (by decide)
  rw [widest] at most
  obtain ⟨q, q_value⟩ := rational?_of_between positive most b_value
  have q_pos : 0 < q := (lt_iff_rational rational?_zero q_value).1 positive
  have q_le : q ≤ b := (le_iff_rational q_value b_value).1 most
  have b_le := (abs_le.1 b_near).2
  rw [mostHundredths_cast] at b_le ⊢
  norm_num at b_le
  obtain ⟨s, s_value, s_near⟩ := rational?_hundredfold q_value q_pos.le (by linarith)
  obtain ⟨s_low, s_high⟩ := abs_le.1 s_near
  norm_num at s_low s_high
  exact ⟨s, s_value, abs_lt.2 ⟨by linarith, by linarith⟩⟩

/-- Of a width the whole number next to its hundredfold is the number of hundredths. -/
theorem IsWidth.nearest {x : Float} {n : Nat} (width : IsWidth x n) : nearestWhole (x * 100.0) = n := by
  obtain ⟨positive, most, ⟨least, n_le⟩, near⟩ := width
  have n_most : (n : ℚ) ≤ Document.mostHundredths := by exact_mod_cast n_le
  have n_least : (1 : ℚ) ≤ n := by exact_mod_cast least
  have small : n < 2 ^ 53 := n_le.trans_lt (by decide)
  obtain ⟨s, s_value, s_lt⟩ := rational?_scaled positive most
  rw [mostHundredths_cast] at n_most s_lt
  obtain ⟨s_low, s_high⟩ := abs_lt.1 s_lt
  have far : |s - n| < 2 ^ (34 : Int) := by
    norm_num
    exact abs_lt.2 ⟨by linarith, by linarith⟩
  obtain ⟨d, d_value, off⟩ := rational?_distance s_value small far (by decide) (by decide)
  have d_le := (le_iff_rational d_value rational?_tolerance).1 near
  have off_low := (abs_le.1 off).1
  norm_num at off_low d_le
  have close : |s - n| < 1 / 2 := by linarith
  obtain ⟨low, high⟩ := abs_lt.1 close
  have s_nonneg : 0 ≤ s := by linarith
  refine nearestWhole_eq s_value ?_ ?_ <;> rw [abs_of_nonneg s_nonneg] <;> linarith

private theorem hundredths_inside {number : Json.Number} (positive : 0.0 < number.toFloat)
    (most : number.toFloat ≤ Float.ofNat Document.mostHundredths / 100.0) :
    ∃ m, m ≤ Document.mostHundredths ∧ nearestWhole (number.toFloat * 100.0) = m ∧
      Document.hundredths (.number number) =
        if 1 ≤ m ∧ (number.toFloat * 100.0 - Float.ofNat m).abs ≤ Document.hundredthsTolerance then .ok m
        else .fail (.parameter "a multiple of 0.01 of at least 0.01" (.number number)) := by
  obtain ⟨s, s_value, s_lt⟩ := rational?_scaled positive most
  obtain ⟨m, m_eq⟩ : ∃ m, ⌊|s| + 1 / 2⌋₊ = m := ⟨_, rfl⟩
  obtain ⟨m_low, m_high⟩ := (Nat.floor_eq_iff (by positivity)).1 m_eq
  have next : nearestWhole (number.toFloat * 100.0) = m := nearestWhole_eq s_value m_low m_high
  have m_le : m ≤ Document.mostHundredths := by
    have : (m : ℚ) < (Document.mostHundredths + 1 : Nat) := by
      push_cast
      linarith
    exact Nat.lt_succ_iff.1 (Nat.cast_lt.1 this)
  have far : |s - m| < 2 ^ (34 : Int) := by
    have m_most : (m : ℚ) ≤ Document.mostHundredths := by exact_mod_cast m_le
    have m_nonneg : (0 : ℚ) ≤ m := Nat.cast_nonneg m
    rw [mostHundredths_cast] at s_lt m_most
    obtain ⟨s_low, s_high⟩ := abs_lt.1 s_lt
    norm_num
    exact abs_lt.2 ⟨by linarith, by linarith⟩
  obtain ⟨d, d_value, -⟩ := rational?_distance s_value (m_le.trans_lt (by decide)) far (by decide) (by decide)
  have within : ¬ Document.hundredthsTolerance < (number.toFloat * 100.0 - Float.ofNat m).abs ↔
      (number.toFloat * 100.0 - Float.ofNat m).abs ≤ Document.hundredthsTolerance := by
    rw [lt_iff_rational rational?_tolerance d_value, le_iff_rational d_value rational?_tolerance, not_lt]
  refine ⟨m, m_le, next, ?_⟩
  simp only [Document.hundredths, positive, most, decide_true, Bool.and_self, if_true, next, min_eq_left m_le,
    Bool.or_eq_true, decide_eq_true_iff]
  simp only [← within, ← Nat.not_lt, ← not_or, ite_not]

private theorem hundredths_outside {number : Json.Number}
    (outside : ¬(0.0 < number.toFloat ∧ number.toFloat ≤ Float.ofNat Document.mostHundredths / 100.0)) :
    Document.hundredths (.number number) = .fail (.parameter "a positive number of at least 0.01" (.number number)) := by
  rw [Document.hundredths]
  dsimp only
  rw [if_neg]
  simpa using outside

theorem hundredths_passes {value : Json.Value} {n : Nat} :
    (Document.hundredths value).Passes n ↔ ∃ number, value = .number number ∧ IsWidth number.toFloat n := by
  cases value with
  | number number =>
    constructor
    · intro passes
      by_cases inside : 0.0 < number.toFloat ∧ number.toFloat ≤ Float.ofNat Document.mostHundredths / 100.0
      · obtain ⟨m, m_le, -, opened⟩ := hundredths_inside inside.1 inside.2
        rw [opened] at passes
        split at passes
        · rename_i fits
          obtain rfl := Checked.passes_ok.1 passes
          exact ⟨number, rfl, inside.1, inside.2, ⟨fits.1, m_le⟩, fits.2⟩
        · exact absurd passes Checked.not_passes_fail
      · rw [hundredths_outside inside] at passes
        exact absurd passes Checked.not_passes_fail
    · rintro ⟨_, same, width⟩
      cases same
      obtain ⟨m, -, next, opened⟩ := hundredths_inside width.positive width.most
      obtain rfl : m = n := next.symm.trans width.nearest
      rw [opened, if_pos ⟨width.range.1, width.near⟩]
      exact Checked.passes_ok.2 rfl
  | _ => simp [Document.hundredths]

theorem isWidth_bandWidth {n : Nat} (least : 1 ≤ n) (most : n ≤ Document.mostHundredths) :
    IsWidth (Indicator.bandWidth n) n := by
  have most_lt : Document.mostHundredths < 2 ^ 32 := by decide
  have n_least : (1 : ℚ) ≤ n := by exact_mod_cast least
  have n_most : (n : ℚ) < 2 ^ 32 := by exact_mod_cast most.trans_lt most_lt
  obtain ⟨q, q_value, q_near⟩ := rational?_bandWidth (most.trans_lt most_lt)
  obtain ⟨q_low, q_high⟩ := abs_le.1 q_near
  norm_num at q_low q_high
  have q_pos : 0 < q := by linarith
  refine ⟨(lt_iff_rational rational?_zero q_value).2 q_pos, ?_, ⟨least, most⟩, ?_⟩
  · change Indicator.bandWidth n ≤ Float.ofNat Document.mostHundredths / 100.0
    rw [widest]
    obtain ⟨b, b_value, b_near⟩ := rational?_bandWidth most_lt
    rw [le_iff_rational q_value b_value]
    rcases most.lt_or_eq with less | rfl
    · have b_low := (abs_le.1 b_near).1
      have step : (n : ℚ) + 1 ≤ Document.mostHundredths := by exact_mod_cast less
      norm_num at b_low
      linarith
    · rw [q_value] at b_value
      exact (Option.some.inj b_value).le
  · -- The quotient is off by `2 ^ -28`, so its hundredfold by a hundred of these and by `2 ^ -21` from its own rounding.
    obtain ⟨s, s_value, s_near⟩ := rational?_hundredfold q_value q_pos.le (by linarith)
    obtain ⟨s_low, s_high⟩ := abs_le.1 s_near
    norm_num at s_low s_high
    have near : |s - n| ≤ 9 / 10 ^ 7 := abs_le.2 ⟨by linarith, by linarith⟩
    have close : |s - n| < 2 ^ (-20 : Int) := near.trans_lt (by norm_num)
    obtain ⟨d, d_value, off⟩ := rational?_distance s_value (by omega) close (by decide) (by decide)
    have off_high := (abs_le.1 off).2
    norm_num at off_high
    refine (le_iff_rational d_value rational?_tolerance).2 ?_
    norm_num
    linarith

end Screener.Filter
