import Mathlib.Data.Int.Order.Basic
import Mathlib.Tactic.ByContra
import Screener.Request

/-! Ranges between bare days. They take in what lies on those days and between them, except for one second: if the last
minute of the last day has a second of number 60, then the range ends right before it. -/
namespace Screener
open Calendar (Clock Date Timestamp)

namespace Calendar

/-- The second of number 60 in the last minute of a day. -/
def Clock.addedSecond : Clock := { Clock.endOfDay with second := 60, second_range := by decide }

theorem Clock.le_endOfDay_iff (c : Clock) : c.rank ≤ endOfDay.rank ↔ c ≠ addedSecond := by
  constructor
  · rintro before rfl
    exact absurd before (by decide)
  · intro other
    by_contra after
    refine other (rank_injective ?_)
    have hours := c.hour_range
    have minutes := c.minute_range
    have seconds := c.second_range
    simp only [rank, endOfDay, addedSecond] at after ⊢
    omega

section
variable {d : Date} {t : Timestamp}

theorem Timestamp.notAfter_iff {a b : Timestamp} : a.notAfter b ↔
    a.date.rank < b.date.rank ∨ a.date = b.date ∧ a.clock.rank ≤ b.clock.rank := by
  have first := a.clock.rank_lt
  have second := b.clock.rank_lt
  rw [notAfter, decide_eq_true_eq, rank, rank]
  constructor
  · intro before
    rcases lt_or_ge a.date.rank b.date.rank with earlier | later
    · exact .inl earlier
    · have day : a.date = b.date := Date.rank_injective (by omega)
      exact .inr ⟨day, by omega⟩
  · rintro (earlier | ⟨day, before⟩)
    · omega
    · rw [day]
      omega

theorem midnight_notAfter_iff : Timestamp.notAfter ⟨d, .midnight⟩ t ↔ d.rank ≤ t.date.rank := by
  rw [Timestamp.notAfter_iff]
  constructor
  · rintro (earlier | ⟨day, -⟩)
    · exact le_of_lt earlier
    · exact le_of_eq (congrArg Date.rank day)
  · intro before
    exact (lt_or_eq_of_le before).imp_right fun same => ⟨Date.rank_injective same, t.clock.rank_lt.1⟩

theorem notAfter_endOfDay_iff : t.notAfter ⟨d, .endOfDay⟩ ↔ t.date.rank ≤ d.rank ∧ t ≠ ⟨d, .addedSecond⟩ := by
  rw [Timestamp.notAfter_iff, Clock.le_endOfDay_iff]
  constructor
  · rintro (earlier | ⟨day, other⟩)
    · exact ⟨le_of_lt earlier, fun same => absurd (same ▸ earlier) (lt_irrefl _)⟩
    · exact ⟨le_of_eq (congrArg Date.rank day), fun same => other (congrArg Timestamp.clock same)⟩
  · rintro ⟨before, other⟩
    refine (lt_or_eq_of_le before).imp_right fun same => ?_
    have day : t.date = d := Date.rank_injective same
    exact ⟨day, fun added => other (by rw [← day, ← added])⟩

end

section
variable {text : String} {d : Date}

private theorem ofText?_of_bareDate? (bare : bareDate? text = some d) :
    Timestamp.ofText? text = some ⟨d, .midnight⟩ := by
  obtain ⟨⟨date, rest⟩, read, whole⟩ := Option.bind_eq_some_iff.1 bare
  cases rest with
  | nil =>
    obtain rfl : date = d := Option.some.inj whole
    rw [Timestamp.ofText?, read]
    rfl
  | cons => cases whole

private theorem endOfText?_of_bareDate? (bare : bareDate? text = some d) :
    Timestamp.endOfText? text = some ⟨d, .endOfDay⟩ := by
  rw [Timestamp.endOfText?, bare]

end

end Calendar

namespace Scan
open Calendar (bareDate? endOfText?_of_bareDate? midnight_notAfter_iff notAfter_endOfDay_iff ofText?_of_bareDate?)

section
variable {first last : String} {a b : Date}

private theorem ofText_days (from_day : bareDate? first = some a) (to_day : bareDate? last = some b)
    (ordered : a.rank ≤ b.rank) :
    DateRange.ofText (some first) (some last) = .ok ⟨some ⟨a, .midnight⟩, some ⟨b, .endOfDay⟩⟩ := by
  have forth : Timestamp.notAfter ⟨a, .midnight⟩ ⟨b, .endOfDay⟩ := midnight_notAfter_iff.2 ordered
  simp only [DateRange.ofText, bound, ofText?_of_bareDate? from_day, endOfText?_of_bareDate? to_day, forth]
  rfl

private theorem ofText_until (to_day : bareDate? last = some b) :
    DateRange.ofText none (some last) = .ok ⟨none, some ⟨b, .endOfDay⟩⟩ := by
  simp only [DateRange.ofText, bound, endOfText?_of_bareDate? to_day]
  rfl

end

/-- A bare day as both bounds takes in that day, and as the last bound all days up to it, except for the second of number
60 at the end of the day. -/
theorem bareDay_contains_iff {text : String} {d : Date} (day : bareDate? text = some d) :
    (∃ range, DateRange.ofText (some text) (some text) = .ok range ∧
        ∀ t : Timestamp, range.contains t ↔ t.date = d ∧ t ≠ ⟨d, .addedSecond⟩) ∧
      ∃ range, DateRange.ofText none (some text) = .ok range ∧
        ∀ t : Timestamp, range.contains t ↔ t.date.rank ≤ d.rank ∧ t ≠ ⟨d, .addedSecond⟩ := by
  refine ⟨⟨_, ofText_days day day le_rfl, fun t => ?_⟩, ⟨_, ofText_until day, fun t => ?_⟩⟩
  · rw [DateRange.contains, Bool.and_eq_true, Option.all_some, Option.all_some, midnight_notAfter_iff,
      notAfter_endOfDay_iff, ← and_assoc]
    refine and_congr_left' ⟨fun ⟨from_day, to_day⟩ => Date.rank_injective (le_antisymm to_day from_day), ?_⟩
    rintro rfl
    exact ⟨le_rfl, le_rfl⟩
  · rw [DateRange.contains, Bool.and_eq_true, Option.all_none, Option.all_some, notAfter_endOfDay_iff]
    exact and_iff_right rfl

theorem bareDay_contains_iff_sample :
    ∃ d range, bareDate? " 2024-2-29 " = some d ∧ DateRange.ofText (some " 2024-2-29 ") (some " 2024-2-29 ") = .ok range ∧
      range.contains ⟨d, .midnight⟩ ∧ range.contains ⟨d, ⟨23, 58, 60, by decide, by decide, by decide⟩⟩ := by
  obtain ⟨d, day⟩ : ∃ d, bareDate? " 2024-2-29 " = some d := Option.isSome_iff_exists.1 (by decide)
  obtain ⟨⟨range, made, contains⟩, -⟩ := bareDay_contains_iff day
  have start : Clock.midnight ≠ .addedSecond := by decide
  have earlier : (⟨23, 58, 60, by decide, by decide, by decide⟩ : Clock) ≠ .addedSecond := by decide
  exact ⟨d, range, day, made, (contains _).2 ⟨rfl, fun same => start (congrArg Timestamp.clock same)⟩,
    (contains _).2 ⟨rfl, fun same => earlier (congrArg Timestamp.clock same)⟩⟩

/-- A point in time of a day can lie outside of the range that has the bare day as both bounds. -/
theorem exists_left_out_of_day :
    ∃ d t range, bareDate? "2016-12-31" = some d ∧ Timestamp.ofText? "2016-12-31 23:59:60" = some t ∧ t.date = d ∧
      DateRange.ofText (some "2016-12-31") (some "2016-12-31") = .ok range ∧ range.contains t = false := by
  have day : bareDate? "2016-12-31" = some ⟨2016, 12, 31, by decide, by decide, by decide⟩ := by decide
  have added : Timestamp.ofText? "2016-12-31 23:59:60" =
      some ⟨⟨2016, 12, 31, by decide, by decide, by decide⟩, .addedSecond⟩ := by decide
  exact ⟨_, _, _, day, added, rfl, ofText_days day day le_rfl, by decide⟩

end Scan
end Screener
