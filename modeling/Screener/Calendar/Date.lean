/-! Days of the Gregorian calendar, extended to all years that fit, and the weeks they fall in. -/
namespace Screener.Calendar

def isLeap (year : Int) : Bool := year % 4 == 0 && (year % 100 != 0 || year % 400 == 0)

def daysIn (year : Int) (month : Nat) : Nat :=
  if month = 2 then (if isLeap year then 29 else 28)
  else if month = 4 ∨ month = 6 ∨ month = 9 ∨ month = 11 then 30
  else 31

def firstYear : Int := -262143

def lastYear : Int := 262142

structure Date where
  year : Int
  month : Nat
  day : Nat
  year_range : firstYear ≤ year ∧ year ≤ lastYear
  month_range : 1 ≤ month ∧ month ≤ 12
  day_range : 1 ≤ day ∧ day ≤ daysIn year month
  deriving DecidableEq

def Date.of? (year : Int) (month day : Nat) : Option Date :=
  if h : (firstYear ≤ year ∧ year ≤ lastYear) ∧ (1 ≤ month ∧ month ≤ 12) ∧
      (1 ≤ day ∧ day ≤ daysIn year month) then
    some ⟨year, month, day, h.1, h.2.1, h.2.2⟩
  else none

theorem daysIn_le (year : Int) (month : Nat) : daysIn year month ≤ 31 := by
  unfold daysIn
  split <;> try split
  all_goals omega

def Date.rank (d : Date) : Int := (d.year * 13 + d.month) * 32 + d.day

theorem Date.rank_injective {a b : Date} (h : a.rank = b.rank) : a = b := by
  obtain ⟨y, m, d, _, hm, hd⟩ := a
  obtain ⟨y', m', d', _, hm', hd'⟩ := b
  have := daysIn_le y m
  have := daysIn_le y' m'
  simp only [Date.rank] at h
  simp only [Date.mk.injEq]
  omega

def daysBefore (year : Int) (month : Nat) : Nat :=
  (List.range (month - 1)).foldl (fun days m => days + daysIn year (m + 1)) 0

def Date.number (d : Date) : Int :=
  let past := d.year - 1
  365 * past + past / 4 - past / 100 + past / 400 + daysBefore d.year d.month + d.day

/-- The number of the week of a day. Weeks begin on Monday, as the first of January of the year one did. -/
def Date.week (d : Date) : Int := (d.number - 1) / 7

end Screener.Calendar
