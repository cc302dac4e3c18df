import Screener.Calendar.Date

/-! Points in time to the second. A minute may have a second of number 60, later than its second 59 and
earlier than the next minute. -/
namespace Screener.Calendar

structure Clock where
  hour : Nat
  minute : Nat
  second : Nat
  hour_range : hour ≤ 23
  minute_range : minute ≤ 59
  second_range : second ≤ 60
  deriving DecidableEq

def Clock.of? (hour minute second : Nat) : Option Clock :=
  if h : hour ≤ 23 ∧ minute ≤ 59 ∧ second ≤ 60 then some ⟨hour, minute, second, h.1, h.2.1, h.2.2⟩
  else none

def Clock.midnight : Clock := ⟨0, 0, 0, by decide, by decide, by decide⟩

/-- The second at which the range of a bare day ends. -/
def Clock.endOfDay : Clock := ⟨23, 59, 59, by decide, by decide, by decide⟩

def Clock.rank (c : Clock) : Int := (c.hour * 60 + c.minute) * 61 + c.second

structure Timestamp where
  date : Date
  clock : Clock
  deriving DecidableEq

def Timestamp.rank (t : Timestamp) : Int := t.date.rank * 100000 + t.clock.rank

def Timestamp.notAfter (a b : Timestamp) : Bool := a.rank ≤ b.rank

theorem Clock.rank_lt (c : Clock) : 0 ≤ c.rank ∧ c.rank < 100000 := by
  obtain ⟨h, m, s, hh, hm, hs⟩ := c
  simp only [Clock.rank]
  omega

theorem Clock.rank_injective {a b : Clock} (h : a.rank = b.rank) : a = b := by
  obtain ⟨h₁, m₁, s₁, _, _, _⟩ := a
  obtain ⟨h₂, m₂, s₂, _, _, _⟩ := b
  simp only [Clock.rank] at h
  simp only [Clock.mk.injEq]
  omega

theorem Timestamp.rank_injective {a b : Timestamp} (h : a.rank = b.rank) : a = b := by
  have ha := a.clock.rank_lt
  have hb := b.clock.rank_lt
  simp only [Timestamp.rank] at h
  have hd : a.date = b.date := Date.rank_injective (by omega)
  have hc : a.clock = b.clock := Clock.rank_injective (by omega)
  cases a; cases b; simp_all

end Screener.Calendar
