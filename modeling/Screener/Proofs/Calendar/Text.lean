import Mathlib.Data.List.Lemmas
import Mathlib.Data.List.TakeWhile
import Mathlib.Data.Nat.Digits.Defs
import Screener.Calendar.Text
import Screener.Proofs.Text.Trim

/-! The text of a point in time names that point in time and no other. Every number in it has its full width, so that it
is read up to where it was written, whatever follows; only a year with a sign ends where its digits end. -/
namespace Screener.Calendar
open Screener.Text

theorem isDigit_of_mem_padded {width n : Nat} {c : Char} (member : c ∈ padded width n) : c.isDigit := by
  rcases List.mem_append.1 member with zero | digit
  · obtain rfl := List.eq_of_mem_replicate zero
    rfl
  · exact Nat.isDigit_of_mem_toDigits (by decide) (by decide) digit

theorem whole_padded (width n : Nat) : Decimal.whole (padded width n) = n := by
  have read : Decimal.whole (padded width n) = Nat.ofDigitChars 10 (padded width n) 0 := Nat.ofDigitChars_eq_foldl.symm
  rw [read, padded, Nat.ofDigitChars_append, Nat.ofDigitChars_replicate_zero, Nat.mul_zero,
    Nat.ofDigitChars_ten_toDigits]

private theorem padded_ne_nil (width n : Nat) : padded width n ≠ [] :=
  List.append_ne_nil_of_right_ne_nil _ Nat.toDigits_ne_nil

theorem length_padded {width n : Nat} (some_width : 0 < width) (fits : n < 10 ^ width) :
    (padded width n).length = width := by
  have short : (Nat.toDigits 10 n).length ≤ width := Nat.toDigits_length 10 n width some_width fits
  rw [padded, List.length_append, List.length_replicate, Nat.sub_add_cancel short]

private theorem not_isBlank_of_isDigit {c : Char} (digit : c.isDigit) : isBlank c = false := by
  have range : 48 ≤ c.toNat ∧ c.toNat ≤ 57 := by
    simpa [Char.isDigit, UInt32.le_iff_toNat_le] using digit
  simp [isBlank]
  omega

private theorem skipBlanks_padded (width n : Nat) (rest : List Char) :
    skipBlanks (padded width n ++ rest) = padded width n ++ rest := by
  obtain ⟨first, others, shape⟩ := List.exists_cons_of_ne_nil (padded_ne_nil width n)
  have digit : first.isDigit := isDigit_of_mem_padded (shape ▸ List.mem_cons_self)
  rw [shape, List.cons_append, skipBlanks, List.dropWhile_cons_of_neg (by simp [not_isBlank_of_isDigit digit])]

private theorem count_padded {width n : Nat} (some_width : 0 < width) (fits : n < 10 ^ width) (rest : List Char) :
    count width (padded width n ++ rest) = some (n, rest) := by
  have filled := length_padded some_width fits
  have digits : ((padded width n ++ rest).take width).takeWhile Char.isDigit = padded width n := by
    rw [List.take_append_of_le_length filled.ge, List.take_of_length_le filled.le]
    exact List.takeWhile_eq_self_iff.2 fun c => isDigit_of_mem_padded
  rw [count, skipBlanks_padded, digits, if_neg (by simp [padded_ne_nil]), whole_padded, List.drop_left]

private theorem count_two {n : Nat} (small : n < 100) (rest : List Char) :
    count 2 (padded 2 n ++ rest) = some (n, rest) :=
  count_padded Nat.two_pos small rest

private theorem unbounded_padded (width n : Nat) (rest : List Char) :
    unbounded (padded width n ++ '-' :: rest) = some (n, '-' :: rest) := by
  have digits : (padded width n ++ '-' :: rest).takeWhile Char.isDigit = padded width n := by
    rw [List.takeWhile_append_of_pos fun c => isDigit_of_mem_padded, List.takeWhile_cons_of_neg (by decide),
      List.append_nil]
  rw [unbounded, digits, if_neg (by simp [padded_ne_nil]), whole_padded, List.drop_left]

def yearChars (year : Int) : List Char :=
  (if year < 0 then ['-'] else if 9999 < year then ['+'] else []) ++ padded 4 year.natAbs

private theorem yearOf_yearChars (year : Int) (rest : List Char) :
    yearOf (yearChars year ++ '-' :: rest) = some (year, '-' :: rest) := by
  unfold yearChars
  by_cases negative : year < 0
  · have read : yearOf ('-' :: (padded 4 year.natAbs ++ '-' :: rest)) = some (-(year.natAbs : Int), '-' :: rest) :=
      congrArg (Option.map _) (unbounded_padded 4 year.natAbs rest)
    rw [if_pos negative, List.append_assoc, List.singleton_append, read, Int.ofNat_natAbs_of_nonpos negative.le,
      Int.neg_neg]
  · have size : (year.natAbs : Int) = year := Int.natAbs_of_nonneg (Int.not_lt.1 negative)
    rw [if_neg negative]
    by_cases signed : 9999 < year
    · have read : yearOf ('+' :: (padded 4 year.natAbs ++ '-' :: rest)) = some ((year.natAbs : Int), '-' :: rest) :=
        congrArg (Option.map _) (unbounded_padded 4 year.natAbs rest)
      rw [if_pos signed, List.append_assoc, List.singleton_append, read, size]
    · have read : count 4 (padded 4 year.natAbs ++ '-' :: rest) = some (year.natAbs, '-' :: rest) :=
        count_padded (by decide) (by omega) _
      obtain ⟨first, others, shape⟩ := List.exists_cons_of_ne_nil (padded_ne_nil 4 year.natAbs)
      have digit : first.isDigit := isDigit_of_mem_padded (shape ▸ List.mem_cons_self)
      rw [if_neg signed, List.nil_append, yearOf, skipBlanks_padded]
      rw [shape, List.cons_append] at read ⊢
      split
      · simp_all
      · simp_all
      · rw [read, Option.map_some]
        exact congrArg (fun y => some (y, '-' :: rest)) size

private theorem of?_self (d : Date) : Date.of? d.year d.month d.day = some d :=
  dif_pos ⟨d.year_range, d.month_range, d.day_range⟩

theorem Date.chars_eq (d : Date) :
    d.chars = yearChars d.year ++ '-' :: (padded 2 d.month ++ '-' :: padded 2 d.day) := by
  simp [Date.chars, yearChars]

private theorem dateOf_chars (d : Date) (rest : List Char) : dateOf (d.chars ++ rest) = some (d, rest) := by
  have months := d.month_range
  have days := d.day_range.2.trans (daysIn_le d.year d.month)
  have month := count_two (show d.month < 100 by omega)
  have day := count_two (show d.day < 100 by omega) rest
  rw [d.chars_eq, List.append_assoc, List.cons_append, List.append_assoc, List.cons_append, dateOf, yearOf_yearChars]
  simp [after, month, day, of?_self]

private theorem clockOf_chars (c : Clock) : clockOf c.chars = some c := by
  obtain ⟨hour, minute, second, hours, minutes, seconds⟩ := c
  have first := count_two (show hour < 100 by omega)
  have next := count_two (show minute < 100 by omega)
  have last := count_two (show second < 100 by omega) []
  rw [List.append_nil] at last
  simp [clockOf, Clock.chars, after, first, next, last, Clock.of?, hours, minutes, seconds]

private theorem solid_of_padded {width n : Nat} {c : Char} (member : c ∈ padded width n) : isBlank c = false :=
  not_isBlank_of_isDigit (isDigit_of_mem_padded member)

private theorem solid_of_date {d : Date} {c : Char} (member : c ∈ d.chars) : isBlank c = false := by
  have hyphen : isBlank '-' = false := by decide
  rw [d.chars_eq, List.mem_append, List.mem_cons, List.mem_append, List.mem_cons, yearChars, List.mem_append] at member
  rcases member with (sign | year) | rfl | month | rfl | day
  · split at sign
    · rwa [List.mem_singleton.1 sign]
    · split at sign
      · rw [List.mem_singleton.1 sign]
        decide
      · cases sign
  · exact solid_of_padded year
  · exact hyphen
  · exact solid_of_padded month
  · exact hyphen
  · exact solid_of_padded day

private theorem solid_of_clock {c : Clock} {x : Char} (member : x ∈ c.chars) : isBlank x = false := by
  have colon : isBlank ':' = false := by decide
  simp only [Clock.chars, List.append_assoc, List.cons_append, List.mem_append, List.mem_cons] at member
  rcases member with hour | rfl | minute | rfl | second
  · exact solid_of_padded hour
  · exact colon
  · exact solid_of_padded minute
  · exact colon
  · exact solid_of_padded second

private theorem trimChars_chars (t : Timestamp) : trimChars t.chars = t.chars := by
  have day : ∀ c ∈ t.date.chars.head?, isBlank c = false := fun c first => solid_of_date (List.mem_of_mem_head? first)
  have some_day : t.date.chars ≠ [] := by simp [Date.chars_eq]
  unfold Timestamp.chars
  split
  · exact trimChars_eq_self day fun c last => solid_of_date (List.mem_of_getLast? last)
  · have some_clock : t.clock.chars ≠ [] := by simp [Clock.chars]
    refine trimChars_eq_self (fun c first => ?_) fun c last => ?_
    · rw [List.head?_append_of_ne_nil _ some_day] at first
      exact day c first
    · rw [List.getLast?_append_of_ne_nil _ (List.cons_ne_nil _ _), List.getLast?_cons_of_ne_nil some_clock] at last
      exact solid_of_clock (List.mem_of_getLast? last)

/-- A point in time is read back from its text. -/
theorem Timestamp.ofText?_text (t : Timestamp) : Timestamp.ofText? t.text = some t := by
  rw [Timestamp.ofText?, Timestamp.text, String.toList_ofList, trimChars_chars, Timestamp.chars]
  split
  · rename_i bare
    have read := dateOf_chars t.date []
    rw [List.append_nil] at read
    simp [read, ← bare]
  · have clock : clockOf (' ' :: t.clock.chars) = some t.clock := clockOf_chars t.clock
    simp [dateOf_chars, clock]

theorem Timestamp.text_inj {a b : Timestamp} : a.text = b.text ↔ a = b := by
  refine ⟨fun same => ?_, congrArg _⟩
  have read := ofText?_text a
  rw [same, ofText?_text] at read
  exact (Option.some.inj read).symm

end Screener.Calendar
