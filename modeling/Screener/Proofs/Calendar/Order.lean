import Screener.Proofs.Calendar.Text

/-! The order of written points in time. A year without a sign has four digits, so every number in the text has its full
width, and then the texts are in the order in which the points in time are. Years with a sign are out of order: a sign
stands before every digit, and the longer number is not the later text. -/
namespace Screener.Calendar

private theorem append_lt_append {front front' : List Char} (same : front.length = front'.length)
    (less : front < front') (back back' : List Char) : front ++ back < front' ++ back' := by
  induction front generalizing front' with
  | nil =>
    obtain rfl := List.eq_nil_of_length_eq_zero same.symm
    exact absurd less (List.lt_irrefl _)
  | cons c rest ih =>
    cases front' with
    | nil => cases same
    | cons c' rest' =>
      rw [List.cons_append, List.cons_append, List.cons_lt_cons_iff]
      rcases List.cons_lt_cons_iff.1 less with first | ⟨here, later⟩
      · exact .inl first
      · exact .inr ⟨here, ih (Nat.succ.inj same) later⟩

private theorem whole_cons (c : Char) (digits : List Char) :
    Decimal.whole (c :: digits) = 10 ^ digits.length * Decimal.digitValue c + Decimal.whole digits := by
  have read (start : Nat) : Nat.ofDigitChars 10 digits start = Decimal.wholeFrom start digits :=
    Nat.ofDigitChars_eq_foldl
  have split := @Nat.ofDigitChars_eq_ofDigitChars_zero digits (Decimal.digitValue c)
  rw [read, read] at split
  exact (congrArg (Decimal.wholeFrom · digits) (Nat.zero_add _)).trans split

private theorem digit_range {c : Char} (digit : c.isDigit) : 48 ≤ c.toNat ∧ c.toNat ≤ 57 := by
  simpa [Char.isDigit, UInt32.le_iff_toNat_le] using digit

private theorem whole_lt {digits : List Char} (all : ∀ c ∈ digits, c.isDigit) :
    Decimal.whole digits < 10 ^ digits.length := by
  induction digits with
  | nil => exact Nat.one_pos
  | cons c rest ih =>
    obtain ⟨first, others⟩ := List.forall_mem_cons.1 all
    have small : Decimal.digitValue c < 10 := by
      have range := digit_range first
      rw [Decimal.digitValue]
      omega
    calc Decimal.whole (c :: rest)
        = 10 ^ rest.length * Decimal.digitValue c + Decimal.whole rest := whole_cons c rest
      _ < 10 ^ rest.length * Decimal.digitValue c + 10 ^ rest.length := Nat.add_lt_add_left (ih others) _
      _ = 10 ^ rest.length * (Decimal.digitValue c + 1) := (Nat.mul_succ ..).symm
      _ ≤ 10 ^ rest.length * 10 := Nat.mul_le_mul_left _ small
      _ = 10 ^ (c :: rest).length := (Nat.pow_succ ..).symm

private theorem lt_of_whole_lt {a b : List Char} (same : a.length = b.length) (digits : ∀ c ∈ a, c.isDigit)
    (digits' : ∀ c ∈ b, c.isDigit) (less : Decimal.whole a < Decimal.whole b) : a < b := by
  induction a generalizing b with
  | nil =>
    obtain rfl := List.eq_nil_of_length_eq_zero same.symm
    exact absurd less (Nat.lt_irrefl _)
  | cons c rest ih =>
    cases b with
    | nil => cases same
    | cons c' rest' =>
      have width : rest.length = rest'.length := Nat.succ.inj same
      obtain ⟨first, others⟩ := List.forall_mem_cons.1 digits
      obtain ⟨first', others'⟩ := List.forall_mem_cons.1 digits'
      rw [whole_cons, whole_cons, width] at less
      rw [List.cons_lt_cons_iff]
      rcases Nat.lt_trichotomy c.toNat c'.toNat with before | here | behind
      · exact .inl before
      · obtain rfl := Char.toNat_inj.1 here
        exact .inr ⟨rfl, ih width others others' (Nat.lt_of_add_lt_add_left less)⟩
      · -- a greater first digit outweighs whatever follows
        have value : Decimal.digitValue c' + 1 ≤ Decimal.digitValue c := by
          have range := digit_range first'
          simp only [Decimal.digitValue]
          omega
        have outweighed := Nat.mul_le_mul_left (10 ^ rest'.length) value
        have small := whole_lt others'
        rw [Nat.mul_succ] at outweighed
        omega

private theorem padded_lt_padded {width m n : Nat} (some_width : 0 < width) (less : m < n) (fits : n < 10 ^ width) :
    padded width m < padded width n := by
  have widths : (padded width m).length = (padded width n).length := by
    rw [length_padded some_width fits, length_padded some_width (less.trans fits)]
  refine lt_of_whole_lt widths (fun _ => isDigit_of_mem_padded) (fun _ => isDigit_of_mem_padded) ?_
  rwa [whole_padded, whole_padded]

def Date.HasPlainYear (d : Date) : Prop := 0 ≤ d.year ∧ d.year ≤ 9999

theorem Date.day_le (d : Date) : d.day ≤ 31 := d.day_range.2.trans (daysIn_le d.year d.month)

private theorem yearChars_of_plain {year : Int} (plain : 0 ≤ year ∧ year ≤ 9999) :
    yearChars year = padded 4 year.natAbs := by
  rw [yearChars, if_neg (Int.not_lt.2 plain.1), if_neg (Int.not_lt.2 plain.2), List.nil_append]

theorem Date.chars_of_plain {d : Date} (plain : d.HasPlainYear) :
    d.chars = padded 4 d.year.natAbs ++ ('-' :: padded 2 d.month ++ '-' :: padded 2 d.day) := by
  rw [d.chars_eq, yearChars_of_plain plain, List.cons_append]

private theorem length_year {year : Int} (plain : 0 ≤ year ∧ year ≤ 9999) : (padded 4 year.natAbs).length = 4 :=
  length_padded (by decide) (by omega)

private theorem length_two {n : Nat} (small : n ≤ 60) : (padded 2 n).length = 2 := length_padded (by decide) (by omega)

private theorem two_lt_two {m n : Nat} (less : m < n) (small : n ≤ 60) (back back' : List Char) :
    padded 2 m ++ back < padded 2 n ++ back' := by
  have width : (padded 2 m).length = (padded 2 n).length := by rw [length_two small, length_two (by omega)]
  exact append_lt_append width (padded_lt_padded (by decide) less (by omega)) back back'

private theorem cons_lt_cons (c : Char) {cs cs' : List Char} (less : cs < cs') : c :: cs < c :: cs' :=
  List.cons_lt_cons_iff.2 (.inr ⟨rfl, less⟩)

theorem Date.length_chars {d : Date} (plain : d.HasPlainYear) : d.chars.length = 10 := by
  have months := d.month_range
  have days := d.day_le
  rw [chars_of_plain plain, List.length_append, length_year plain, List.cons_append, List.length_cons,
    List.length_append, List.length_cons, length_two (by omega), length_two (by omega)]

theorem Date.chars_lt_chars {a b : Date} (plain : a.HasPlainYear) (plain' : b.HasPlainYear)
    (less : a.rank < b.rank) : a.chars < b.chars := by
  have months := a.month_range
  have months' := b.month_range
  have days := a.day_le
  have days' := b.day_le
  have order : a.year < b.year ∨ a.year = b.year ∧ (a.month < b.month ∨ a.month = b.month ∧ a.day < b.day) := by
    simp only [rank] at less
    omega
  have years := plain
  have years' := plain'
  rw [HasPlainYear] at years years'
  rw [chars_of_plain plain, chars_of_plain plain']
  simp only [List.cons_append]
  rcases order with year | ⟨same_year, month | ⟨same_month, day⟩⟩
  · have width : (padded 4 a.year.natAbs).length = (padded 4 b.year.natAbs).length := by
      rw [length_year plain, length_year plain']
    exact append_lt_append width (padded_lt_padded (by decide) (by omega) (by omega)) _ _
  · rw [same_year]
    exact List.append_left_lt (cons_lt_cons _ (two_lt_two month (by omega) _ _))
  · have last := two_lt_two day (by omega) [] []
    rw [List.append_nil, List.append_nil] at last
    rw [same_year, same_month]
    exact List.append_left_lt (cons_lt_cons _ (List.append_left_lt (cons_lt_cons _ last)))

theorem Clock.chars_lt_chars {a b : Clock} (less : a.rank < b.rank) : a.chars < b.chars := by
  obtain ⟨hour, minute, second, hours, minutes, seconds⟩ := a
  obtain ⟨hour', minute', second', hours', minutes', seconds'⟩ := b
  have order : hour < hour' ∨ hour = hour' ∧ (minute < minute' ∨ minute = minute' ∧ second < second') := by
    simp only [rank] at less
    omega
  simp only [chars, List.append_assoc, List.cons_append]
  rcases order with earlier | ⟨rfl, earlier | ⟨rfl, earlier⟩⟩
  · exact two_lt_two earlier (by omega) _ _
  · exact List.append_left_lt (cons_lt_cons _ (two_lt_two earlier (by omega) _ _))
  · have last := two_lt_two earlier (by omega) [] []
    rw [List.append_nil, List.append_nil] at last
    exact List.append_left_lt (cons_lt_cons _ (List.append_left_lt (cons_lt_cons _ last)))

def Clock.tail (c : Clock) : List Char := if c = .midnight then [] else ' ' :: c.chars

theorem Timestamp.chars_eq (t : Timestamp) : t.chars = t.date.chars ++ t.clock.tail := by
  unfold chars Clock.tail
  split
  · exact (List.append_nil _).symm
  · rfl

theorem Clock.tail_lt_tail {a b : Clock} (less : a.rank < b.rank) : a.tail < b.tail := by
  have later : b ≠ .midnight := by
    rintro rfl
    have first : midnight.rank = 0 := rfl
    have start := a.rank_lt.1
    omega
  unfold tail
  rw [if_neg later]
  split
  · exact List.nil_lt_cons _ _
  · exact cons_lt_cons _ (chars_lt_chars less)

namespace Timestamp

def HasPlainYear (t : Timestamp) : Prop := t.date.HasPlainYear

theorem rank_lt_iff {a b : Timestamp} :
    a.rank < b.rank ↔ a.date.rank < b.date.rank ∨ a.date = b.date ∧ a.clock.rank < b.clock.rank := by
  have first := a.clock.rank_lt
  have second := b.clock.rank_lt
  constructor
  · intro less
    simp only [rank] at less
    rcases lt_or_ge a.date.rank b.date.rank with earlier | later
    · exact .inl earlier
    · exact .inr ⟨Date.rank_injective (by omega), by omega⟩
  · rintro (earlier | ⟨same, earlier⟩)
    · simp only [rank]
      omega
    · simp only [rank, same]
      omega

private theorem text_lt_text {a b : Timestamp} (plain : a.HasPlainYear) (plain' : b.HasPlainYear)
    (less : a.rank < b.rank) : a.text < b.text := by
  rw [String.lt_iff, text, text, String.toList_ofList, String.toList_ofList, chars_eq, chars_eq]
  rcases rank_lt_iff.1 less with earlier | ⟨same, earlier⟩
  · refine append_lt_append ?_ (Date.chars_lt_chars plain plain' earlier) _ _
    rw [Date.length_chars plain, Date.length_chars plain']
  · rw [same]
    exact List.append_left_lt (Clock.tail_lt_tail earlier)

/-- Written points in time with plain years are ordered as texts as they are in time. -/
theorem text_lt_iff {a b : Timestamp} (plain : a.HasPlainYear) (plain' : b.HasPlainYear) :
    a.text < b.text ↔ a.rank < b.rank := by
  refine ⟨fun less => ?_, text_lt_text plain plain'⟩
  rcases lt_trichotomy a.rank b.rank with earlier | same | later
  · exact earlier
  · rw [rank_injective same] at less
    exact absurd less (String.lt_irrefl _)
  · exact absurd less (String.lt_asymm (text_lt_text plain' plain later))

end Timestamp
end Screener.Calendar
