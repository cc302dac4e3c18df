import Screener.Calendar.Timestamp

/-! Days in order. Later days have greater numbers, and two days lie in one week exactly if they are written with the same
year and week in the numbering of ISO 8601, which gives the days around a new year to the year that most of their week
lies in. -/
namespace Screener.Calendar

def newYear (year : Int) : Int :=
  let past := year - 1
  365 * past + past / 4 - past / 100 + past / 400

def daysInYear (year : Int) : Int := if isLeap year then 366 else 365

/-- A year has a week more if it begins on a Thursday, and a leap year also if it begins on a Wednesday. -/
def weeksIn (year : Int) : Int :=
  let begins := newYear year % 7 + 1
  if begins = 4 ∨ isLeap year ∧ begins = 3 then 53 else 52

namespace Date

def ordinal (d : Date) : Int := daysBefore d.year d.month + d.day

def weekday (d : Date) : Int := (d.number - 1) % 7 + 1

/-- The year and the number of the week that a day lies in. The first days of a year may lie in the last week of the year
before, and the last days in the first week of the next one. -/
def isoWeek (d : Date) : Int × Int :=
  let week := (d.ordinal - d.weekday + 10) / 7
  if week < 1 then (d.year - 1, weeksIn (d.year - 1))
  else if weeksIn d.year < week then (d.year + 1, 1)
  else (d.year, week)

end Date

private theorem newYear_succ (year : Int) : newYear (year + 1) = newYear year + daysInYear year := by
  simp only [newYear, daysInYear, isLeap, Bool.and_eq_true, Bool.or_eq_true, bne_iff_ne, beq_iff_eq]
  split <;> omega

private theorem le_daysInYear (year : Int) : 365 ≤ daysInYear year := by
  simp only [daysInYear]
  split <;> omega

private theorem newYear_mono {a b : Int} (le : a ≤ b) : newYear a ≤ newYear b := by
  simp only [newYear]
  omega

private theorem daysBefore_succ (year : Int) {month : Nat} (begun : 1 ≤ month) :
    daysBefore year (month + 1) = daysBefore year month + daysIn year month := by
  obtain ⟨before, rfl⟩ : ∃ before, month = before + 1 := ⟨month - 1, by omega⟩
  simp only [daysBefore, Nat.add_sub_cancel, List.range_succ, List.foldl_append, List.foldl_cons, List.foldl_nil]

private theorem daysBefore_mono (year : Int) {a b : Nat} (begun : 1 ≤ a) (le : a ≤ b) :
    daysBefore year a ≤ daysBefore year b := by
  induction b with
  | zero => omega
  | succ b ih =>
    rcases Nat.lt_or_ge b a with last | before
    · obtain rfl : a = b + 1 := by omega
      exact Nat.le_refl _
    · rw [daysBefore_succ year (by omega : 1 ≤ b)]
      exact Nat.le_add_right_of_le (ih before)

private theorem daysBefore_end (year : Int) : (daysBefore year 13 : Int) = daysInYear year := by
  simp only [daysBefore, daysIn, daysInYear, List.range_succ, List.range_zero]
  cases isLeap year <;> rfl

namespace Date

private theorem ordinal_range (d : Date) : 1 ≤ d.ordinal ∧ d.ordinal ≤ daysInYear d.year := by
  obtain ⟨_, month_le⟩ := d.month_range
  obtain ⟨_, day_le⟩ := d.day_range
  have within : daysBefore d.year (d.month + 1) ≤ daysBefore d.year 13 := daysBefore_mono d.year (by omega) (by omega)
  rw [daysBefore_succ d.year d.month_range.1] at within
  have year_end := daysBefore_end d.year
  simp only [ordinal]
  omega

private theorem number_eq (d : Date) : d.number = newYear d.year + d.ordinal := by
  simp only [number, newYear, ordinal]
  omega

private theorem number_mono {a b : Date} (le : a.rank ≤ b.rank) : a.number ≤ b.number := by
  obtain ⟨a_first, a_last⟩ := a.ordinal_range
  obtain ⟨b_first, b_last⟩ := b.ordinal_range
  have a_days := daysIn_le a.year a.month
  have b_days := daysIn_le b.year b.month
  have a_month := a.month_range
  have b_month := b.month_range
  have a_day := a.day_range
  have b_day := b.day_range
  simp only [rank] at le
  rw [number_eq, number_eq]
  rcases Int.lt_trichotomy a.year b.year with earlier | same | later
  · have until_then : newYear (a.year + 1) ≤ newYear b.year := newYear_mono earlier
    rw [newYear_succ] at until_then
    omega
  · rcases Nat.lt_or_ge a.month b.month with before | after
    · have until_then : daysBefore b.year (a.month + 1) ≤ daysBefore b.year b.month :=
        daysBefore_mono b.year (by omega) before
      rw [daysBefore_succ b.year a_month.1, ← same] at until_then
      simp only [ordinal, ← same]
      omega
    · have month : a.month = b.month := by omega
      simp only [ordinal, same, month]
      omega
  · omega

theorem week_mono {a b : Date} (le : a.rank ≤ b.rank) : a.week ≤ b.week := by
  have numbers := number_mono le
  simp only [week]
  omega

end Date

def firstWeek (year : Int) : Int := (newYear year + 3) / 7

private theorem weeksIn_eq (year : Int) : weeksIn year = firstWeek (year + 1) - firstWeek year := by
  simp only [firstWeek, weeksIn, newYear_succ, daysInYear]
  cases isLeap year
  · simp only [Bool.false_eq_true, false_and, or_false, if_false]
    split <;> omega
  · simp only [true_and, if_true]
    split <;> omega

private theorem firstWeek_mono {a b : Int} (le : a ≤ b) : firstWeek a ≤ firstWeek b := by
  have later := newYear_mono le
  simp only [firstWeek]
  omega

namespace Date

private theorem week_of_year (d : Date) : (d.ordinal - d.weekday + 10) / 7 = d.week - firstWeek d.year + 1 := by
  simp only [weekday, week, firstWeek, d.number_eq]
  omega

private theorem isoWeek_spec (d : Date) :
    d.week = firstWeek d.isoWeek.1 + d.isoWeek.2 - 1 ∧
      firstWeek d.isoWeek.1 ≤ d.week ∧ d.week < firstWeek (d.isoWeek.1 + 1) := by
  obtain ⟨first, last⟩ := d.ordinal_range
  have long_before := le_daysInYear (d.year - 1)
  have long_after := le_daysInYear (d.year + 1)
  have before := newYear_succ (d.year - 1)
  have after := newYear_succ d.year
  have beyond := newYear_succ (d.year + 1)
  have last_year := weeksIn_eq (d.year - 1)
  have this_year := weeksIn_eq d.year
  rw [Int.sub_add_cancel] at before last_year
  have in_week : d.week = (newYear d.year + d.ordinal - 1) / 7 := by rw [week, number_eq]
  unfold isoWeek
  simp only [week_of_year]
  split
  · simp only [Int.sub_add_cancel]
    simp only [firstWeek] at *
    omega
  · split
    · simp only [firstWeek] at *
      omega
    · simp only
      omega

/-- Days of one week are those with the same year and number of the week. -/
theorem isoWeek_eq_iff (a b : Date) : a.isoWeek = b.isoWeek ↔ a.week = b.week := by
  obtain ⟨a_week, a_first, a_last⟩ := a.isoWeek_spec
  obtain ⟨b_week, b_first, b_last⟩ := b.isoWeek_spec
  constructor
  · intro same
    rw [a_week, b_week, same]
  · intro same
    -- The weeks of two years do not overlap, so the year is that of the week.
    have year : a.isoWeek.1 = b.isoWeek.1 := by
      rcases Int.lt_trichotomy a.isoWeek.1 b.isoWeek.1 with earlier | equal | later
      · have until_then : firstWeek (a.isoWeek.1 + 1) ≤ firstWeek b.isoWeek.1 := firstWeek_mono earlier
        omega
      · exact equal
      · have until_then : firstWeek (b.isoWeek.1 + 1) ≤ firstWeek a.isoWeek.1 := firstWeek_mono later
        omega
    rw [year] at a_week
    exact Prod.ext year (by omega)

end Date
end Screener.Calendar
