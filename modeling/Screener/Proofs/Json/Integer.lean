import Screener.Proofs.Json.Text

/-! Whole numbers read back. The digits of a number that fits a word are gathered without loss, and only zero itself
begins with a zero, so all of them are taken as one number. -/
namespace Screener.Json

private theorem le_wholeFrom (start : Nat) (digits : List Char) : start ≤ Decimal.wholeFrom start digits := by
  induction digits generalizing start with
  | nil => exact Nat.le_refl start
  | cons c rest ih =>
    calc start ≤ 10 * start + Decimal.digitValue c := by omega
      _ ≤ Decimal.wholeFrom start (c :: rest) := ih _

private theorem gatherWhole_eq {start : Nat} {digits : List Char} (fits : Decimal.wholeFrom start digits < wordLimit) :
    gatherWhole start digits = ⟨Decimal.wholeFrom start digits, 0⟩ := by
  induction digits generalizing start with
  | nil => rfl
  | cons c rest ih =>
    have further : Decimal.wholeFrom (10 * start + Decimal.digitValue c) rest < wordLimit := fits
    rw [gatherWhole, if_pos (Nat.lt_of_le_of_lt (le_wholeFrom _ rest) further), ih further]
    rfl

private theorem head?_toDigits_ne_zero {n : Nat} (positive : 0 < n) : (Nat.toDigits 10 n).head? ≠ some '0' := by
  induction n using Nat.strong_induction_on with
  | _ n ih =>
    by_cases small : n < 10
    · have each : ∀ k < 10, 0 < k → (Nat.toDigits 10 k).head? ≠ some '0' := by decide
      exact each n small positive
    · have first : (Nat.toDigits 10 (n / 10)).head? ≠ some '0' := ih (n / 10) (by omega) (by omega)
      obtain ⟨c, rest, shape⟩ := List.exists_cons_of_ne_nil (@Nat.toDigits_ne_nil (n / 10) 10)
      rw [Nat.toDigits_of_base_le (by decide) (Nat.le_of_not_lt small), shape]
      rwa [shape] at first

private theorem wholePart_toDigits (n : Nat) : wholePart (Nat.toDigits 10 n) = some (Nat.toDigits 10 n, []) := by
  rcases Nat.eq_zero_or_pos n with rfl | positive
  · decide
  · have digits : ∀ c ∈ Nat.toDigits 10 n, c.isDigit := fun c => Nat.isDigit_of_mem_toDigits (by decide) (by decide)
    have first := head?_toDigits_ne_zero positive
    obtain ⟨c, rest, shape⟩ := List.exists_cons_of_ne_nil (@Nat.toDigits_ne_nil n 10)
    rw [shape] at digits first ⊢
    have taken : (c :: rest).takeWhile Char.isDigit = c :: rest := List.takeWhile_eq_self_iff.2 digits
    have left : (c :: rest).dropWhile Char.isDigit = [] := List.dropWhile_eq_nil_iff.2 digits
    rw [wholePart.eq_def]
    split
    · rename_i same
      cases same
      exact absurd rfl first
    · rw [taken, left]
      rfl

/-- A whole number that fits a word is read back. -/
theorem readsBack_integer {n : Nat} (fits : n < wordLimit) : (Number.integer n).ReadsBack := by
  have written : (Number.integer n).chars = Nat.toDigits 10 n := by
    rw [Number.chars]
    exact Nat.toList_repr
  have digits := wholePart_toDigits n
  have value : Decimal.wholeFrom 0 (Nat.toDigits 10 n) = n :=
    Nat.ofDigitChars_eq_foldl.symm.trans Nat.ofDigitChars_ten_toDigits
  have gathered := gatherWhole_eq (value.symm ▸ fits)
  have made : numberOf false (Nat.toDigits 10 n) none none = some (.integer n) := by
    simp [numberOf, gathered, value]
  have unsigned : '-' ∉ Nat.toDigits 10 n :=
    fun minus => absurd (Nat.isDigit_of_mem_toDigits (by decide) (by decide) minus) (by decide)
  obtain ⟨c, rest, shape⟩ := List.exists_cons_of_ne_nil (@Nat.toDigits_ne_nil n 10)
  rw [Number.ReadsBack, written, shape]
  rw [shape] at digits made unsigned
  have other : c ≠ '-' := fun same => unsigned (same ▸ List.mem_cons_self)
  simp [number, other, digits, fractionPart, exponentPart, made]

end Screener.Json
