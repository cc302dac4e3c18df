import Screener.History
import Mathlib.Data.List.Forall2

/-! What resampled bars tell about the bars they were made of. A bar of a coarser timeframe is dated like the
last bar in it, so whoever looks as of a time meets only bars made of what was dated by then. -/
namespace Screener
open Calendar (Timestamp)

/-- Every bar is dated at or before all bars behind it. -/
def Ascending (bars : List Bar) : Prop := bars.Pairwise fun a b => a.date.notAfter b.date

instance (bars : List Bar) : Decidable (Ascending bars) := inferInstanceAs (Decidable (bars.Pairwise _))

/-- The bars in front of the first one dated after a time. -/
def visible (time : Timestamp) (bars : List Bar) : List Bar := bars.takeWhile (·.date.notAfter time)

/-- Bars with the same dates, row by row, that are equal as long as they are dated at or before a time. -/
def SameUntil (time : Timestamp) : List Bar → List Bar → Prop :=
  List.Forall₂ fun a b => a.date = b.date ∧ (a.date.notAfter time → a = b)

variable {time : Timestamp} {target : Timeframe}

theorem notAfter_refl (t : Timestamp) : t.notAfter t := by simp [Timestamp.notAfter]

theorem notAfter_trans {a b c : Timestamp} (first : a.notAfter b) (second : b.notAfter c) : a.notAfter c := by
  simp only [Timestamp.notAfter, decide_eq_true_eq] at *
  omega

theorem notAfter_antisymm {a b : Timestamp} (forth : a.notAfter b) (back : b.notAfter a) : a = b := by
  simp only [Timestamp.notAfter, decide_eq_true_eq] at forth back
  exact Timestamp.rank_injective (Int.le_antisymm forth back)

private theorem length_gather_le (target : Timeframe) (bar : Bar) (rest : List Bar) :
    (bar.gather target rest).length ≤ rest.length + 1 := by
  induction rest generalizing bar with
  | nil => exact Nat.le_refl _
  | cons next rest ih =>
    rw [Bar.gather]
    split
    · exact Nat.le_succ_of_le (ih _)
    · exact Nat.succ_le_succ (ih _)

theorem length_resample_le (target : Timeframe) (bars : List Bar) : (resample target bars).length ≤ bars.length := by
  cases bars with
  | nil => exact Nat.le_refl _
  | cons bar rest => exact length_gather_le target bar rest

theorem visible_cons (bar : Bar) (rest : List Bar) :
    visible time (bar :: rest) = if bar.date.notAfter time then bar :: visible time rest else [] := by
  unfold visible
  rw [List.takeWhile_cons]

theorem visible_initial (time : Timestamp) (bars : List Bar) : visible time bars <+: bars :=
  List.takeWhile_prefix _

private theorem visible_append {xs ys : List Bar} (later : visible time ys = []) :
    visible time (xs ++ ys) = visible time xs := by
  induction xs with
  | nil => exact later
  | cons bar rest ih => rw [List.cons_append, visible_cons, visible_cons, ih]

theorem visible_of_sameUntil {xs ys : List Bar} (same : SameUntil time xs ys) :
    visible time xs = visible time ys := by
  induction same with
  | nil => rfl
  | @cons x y xs ys head _ ih =>
    rw [visible_cons, visible_cons, ← head.1]
    split
    · rename_i dated
      rw [head.2 dated, ih]
    · rfl

theorem SameUntil.dates {xs ys : List Bar} (same : SameUntil time xs ys) :
    xs.map (·.date) = ys.map (·.date) := by
  induction same with
  | nil => rfl
  | cons head _ ih => rw [List.map_cons, List.map_cons, head.1, ih]

theorem SameUntil.ascending {xs ys : List Bar} (same : SameUntil time xs ys) (ascending : Ascending xs) :
    Ascending ys := by
  have dates : (xs.map (·.date)).Pairwise fun a b => a.notAfter b := List.pairwise_map.2 ascending
  rw [same.dates] at dates
  exact List.pairwise_map.1 dates

theorem SameUntil.take_eq {xs ys : List Bar} (same : SameUntil time xs ys) (ascending : Ascending xs) {i : Nat}
    {row : Bar} (here : xs[i]? = some row) (dated : row.date.notAfter time) : xs.take (i + 1) = ys.take (i + 1) := by
  induction same generalizing i with
  | nil => rfl
  | @cons x y xs ys head _ ih =>
    obtain ⟨first, others⟩ := List.pairwise_cons.1 ascending
    cases i with
    | zero =>
      obtain rfl : x = row := by simpa using here
      simp [head.2 dated]
    | succ i =>
      have inside : xs[i]? = some row := by simpa using here
      have before : x.date.notAfter row.date := first row (List.mem_of_getElem? inside)
      rw [List.take_succ_cons, List.take_succ_cons, head.2 (notAfter_trans before dated), ih others inside]

theorem notAfter_last {bars : List Bar} (ascending : Ascending bars) {row last : Bar} (member : row ∈ bars)
    (ends : bars.getLast? = some last) : row.date.notAfter last.date := by
  obtain ⟨before, rfl⟩ := List.getLast?_eq_some_iff.1 ends
  rcases List.mem_append.1 member with early | at_end
  · exact (List.pairwise_append.1 ascending).2.2 row early last (List.mem_singleton_self last)
  · obtain rfl : row = last := by simpa using at_end
    exact notAfter_refl _

theorem date_absorb (bar next : Bar) : (bar.absorb next).date = next.date := rfl

private theorem ascending_absorb {bar next : Bar} {rest : List Bar} (ascending : Ascending (bar :: next :: rest)) :
    Ascending (bar.absorb next :: rest) := by
  obtain ⟨_, others⟩ := List.pairwise_cons.1 ascending
  exact List.pairwise_cons.2 (List.pairwise_cons.1 others)

private theorem notAfter_of_mem_gather {bar made : Bar} {rest : List Bar} (ascending : Ascending (bar :: rest))
    (member : made ∈ bar.gather target rest) : bar.date.notAfter made.date := by
  induction rest generalizing bar with
  | nil =>
    obtain rfl : made = bar := by simpa [Bar.gather] using member
    exact notAfter_refl _
  | cons next rest ih =>
    obtain ⟨first, others⟩ := List.pairwise_cons.1 ascending
    have step : bar.date.notAfter next.date := first next List.mem_cons_self
    rw [Bar.gather] at member
    split at member
    · have reached : (bar.absorb next).date.notAfter made.date := ih (ascending_absorb ascending) member
      exact notAfter_trans step reached
    · rcases List.mem_cons.1 member with rfl | inside
      · exact notAfter_refl _
      · exact notAfter_trans step (ih others inside)

private theorem ascending_gather {bar : Bar} {rest : List Bar} (ascending : Ascending (bar :: rest)) :
    Ascending (bar.gather target rest) := by
  induction rest generalizing bar with
  | nil => exact List.pairwise_singleton _ _
  | cons next rest ih =>
    obtain ⟨first, others⟩ := List.pairwise_cons.1 ascending
    rw [Bar.gather]
    split
    · exact ih (ascending_absorb ascending)
    · refine List.pairwise_cons.2 ⟨fun made member => ?_, ih others⟩
      exact notAfter_trans (first next List.mem_cons_self) (notAfter_of_mem_gather others member)

theorem ascending_resample {bars : List Bar} (ascending : Ascending bars) : Ascending (resample target bars) := by
  cases bars with
  | nil => exact .nil
  | cons bar rest => exact ascending_gather ascending

private theorem visible_gather_eq_nil {bar : Bar} {rest : List Bar} (ascending : Ascending (bar :: rest))
    (later : ¬bar.date.notAfter time) : visible time (bar.gather target rest) = [] := by
  cases made : bar.gather target rest with
  | nil => rfl
  | cons first others =>
    have member : first ∈ bar.gather target rest := made ▸ List.mem_cons_self
    have follows : bar.date.notAfter first.date := notAfter_of_mem_gather ascending member
    rw [visible_cons, if_neg fun dated => later (notAfter_trans follows dated)]

private theorem visible_gather_of_sameUntil {bar other : Bar} {rest others : List Bar}
    (same : SameUntil time (bar :: rest) (other :: others)) (ascending : Ascending (bar :: rest)) :
    visible time (bar.gather target rest) = visible time (other.gather target others) := by
  induction rest generalizing bar other others with
  | nil =>
    cases same with
    | cons head tail =>
      cases tail
      exact visible_of_sameUntil (.cons head .nil)
  | cons next rest ih =>
    cases same with
    | cons head tail =>
      cases tail with
      | @cons _ next' _ rest' first tail =>
        have step : bar.date.notAfter next.date := (List.pairwise_cons.1 ascending).1 next List.mem_cons_self
        rw [Bar.gather, Bar.gather, ← head.1, ← first.1]
        split
        · -- A bar that is made of both is dated like the second one, by when the first one is equal too.
          refine ih (.cons ⟨first.1, fun dated => ?_⟩ tail) (ascending_absorb ascending)
          rw [head.2 (notAfter_trans step dated), first.2 dated]
        · rw [visible_cons, visible_cons, ← head.1, ih (.cons first tail) (List.pairwise_cons.1 ascending).2]
          split
          · rename_i dated
            rw [head.2 dated]
          · rfl

theorem visible_resample_of_sameUntil {xs ys : List Bar} (same : SameUntil time xs ys)
    (ascending : Ascending xs) : visible time (resample target xs) = visible time (resample target ys) := by
  cases same with
  | nil => rfl
  | cons head tail => exact visible_gather_of_sameUntil (.cons head tail) ascending

private theorem visible_gather_append {bar : Bar} {rest further : List Bar}
    (ascending : Ascending (bar :: (rest ++ further))) (later : ∃ b ∈ bar :: rest, ¬b.date.notAfter time) :
    visible time (bar.gather target (rest ++ further)) = visible time (bar.gather target rest) := by
  induction rest generalizing bar with
  | nil =>
    obtain ⟨b, member, after⟩ := later
    obtain rfl : b = bar := by simpa using member
    have alone : Ascending (b :: []) := List.pairwise_singleton _ _
    rw [List.nil_append] at ascending ⊢
    rw [visible_gather_eq_nil ascending after, visible_gather_eq_nil alone after]
  | cons next rest ih =>
    obtain ⟨first, others⟩ := List.pairwise_cons.1 ascending
    have step : bar.date.notAfter next.date := first next List.mem_cons_self
    obtain ⟨b, member, after⟩ := later
    -- The bar that is put together never takes in the last one dated after the time without being dated so too.
    have still : ∃ b ∈ next :: rest, ¬b.date.notAfter time := by
      rcases List.mem_cons.1 member with rfl | inside
      · exact ⟨next, List.mem_cons_self, fun dated => after (notAfter_trans step dated)⟩
      · exact ⟨b, inside, after⟩
    rw [List.cons_append, Bar.gather, Bar.gather]
    split
    · refine ih (ascending_absorb ascending) ?_
      obtain ⟨b, member, after⟩ := still
      rcases List.mem_cons.1 member with rfl | inside
      · exact ⟨bar.absorb b, List.mem_cons_self, after⟩
      · exact ⟨b, List.mem_cons_of_mem _ inside, after⟩
    · rw [visible_cons, visible_cons, ih others still]

theorem visible_resample_append {bars further : List Bar} (ascending : Ascending (bars ++ further))
    (later : ∃ b ∈ bars, ¬b.date.notAfter time) :
    visible time (resample target (bars ++ further)) = visible time (resample target bars) := by
  cases bars with
  | nil => simp at later
  | cons bar rest => exact visible_gather_append ascending later

private theorem gather_append {bar first : Bar} {rest further : List Bar}
    (apart : target.joins (rest.getLast?.getD bar).date first.date = false) :
    bar.gather target (rest ++ first :: further) = bar.gather target rest ++ first.gather target further := by
  induction rest generalizing bar with
  | nil =>
    have alone : target.joins bar.date first.date = false := apart
    simp only [List.nil_append, Bar.gather, alone, Bool.false_eq_true, if_false, List.singleton_append]
  | cons next rest ih =>
    rw [List.getLast?_cons, Option.getD_some] at apart
    rw [List.cons_append, Bar.gather, Bar.gather]
    split
    · apply ih
      cases ends : rest.getLast? with
      | none => simpa only [ends, Option.getD_none, date_absorb] using apart
      | some last => simpa only [ends, Option.getD_some] using apart
    · rw [ih apart, List.cons_append]

/-- Bars that begin a new bar of the timeframe are put together by themselves. -/
theorem resample_append {bars further : List Bar}
    (apart : ∀ last ∈ bars.getLast?, ∀ first ∈ further.head?, target.joins last.date first.date = false) :
    resample target (bars ++ further) = resample target bars ++ resample target further := by
  cases bars with
  | nil => rfl
  | cons bar rest =>
    cases further with
    | nil => simp [resample]
    | cons first further =>
      refine gather_append (apart _ ?_ first rfl)
      rw [List.getLast?_cons]
      rfl

theorem joins_self (coarse : target ≠ .intraday) (t : Timestamp) : target.joins t t = true := by
  cases target with
  | intraday => exact absurd rfl coarse
  | daily | weekly => simp [Timeframe.joins]

private theorem length_visible_gather_le {bar : Bar} {rest : List Bar} (ascending : Ascending (bar :: rest))
    (coarse : target ≠ .intraday) {i : Nat} {row : Bar} (here : (bar :: rest)[i]? = some row) :
    (visible row.date (bar.gather target rest)).length ≤ i + 1 := by
  induction rest generalizing bar i row with
  | nil => exact Nat.le_trans (visible_initial _ _).length_le (Nat.le_add_left 1 i)
  | cons next rest ih =>
    obtain ⟨first, others⟩ := List.pairwise_cons.1 ascending
    have step : bar.date.notAfter next.date := first next List.mem_cons_self
    have absorbed := ih (ascending_absorb ascending) (i := 0) List.getElem?_cons_zero
    rw [date_absorb] at absorbed
    rw [Bar.gather]
    cases i with
    | zero =>
      obtain rfl : bar = row := by simpa using here
      -- What follows is seen from the first bar only if it has the same date, and is then put together with it.
      split
      · by_cases dated : next.date.notAfter bar.date
        · rw [notAfter_antisymm step dated]
          exact absorbed
        · rw [visible_gather_eq_nil (ascending_absorb ascending) dated]
          exact Nat.zero_le 1
      · rename_i apart
        have later : ¬next.date.notAfter bar.date := fun dated =>
          apart (by rw [notAfter_antisymm step dated, joins_self coarse])
        rw [visible_cons, if_pos (notAfter_refl _), visible_gather_eq_nil others later]
        exact Nat.le_refl 1
    | succ i =>
      have inside : (next :: rest)[i]? = some row := by simpa using here
      split
      · cases i with
        | zero =>
          obtain rfl : next = row := by simpa using inside
          exact Nat.le_succ_of_le absorbed
        | succ i => exact Nat.le_succ_of_le (ih (ascending_absorb ascending) (i := i + 1) inside)
      · rw [visible_cons]
        split
        · exact Nat.succ_le_succ (ih others inside)
        · exact Nat.zero_le _

/-- As of the date of a bar there are no more bars put together than bars up to it, even if bars that follow have
the same date. -/
theorem length_visible_resample_le {bars : List Bar} (ascending : Ascending bars) (coarse : target ≠ .intraday)
    {i : Nat} {row : Bar} (here : bars[i]? = some row) : (visible row.date (resample target bars)).length ≤ i + 1 := by
  cases bars with
  | nil => simp at here
  | cons bar rest => exact length_visible_gather_le ascending coarse here

theorem visible_resample_apart {bars further : List Bar} (ascending : Ascending (bars ++ further))
    (coarse : target ≠ .intraday) {row last : Bar} (member : row ∈ bars) (ends : bars.getLast? = some last)
    (apart : ∀ first ∈ further.head?, target.joins last.date first.date = false) :
    visible row.date (resample target (bars ++ further)) = visible row.date (resample target bars) := by
  obtain ⟨early, late, across⟩ := List.pairwise_append.1 ascending
  have split : resample target (bars ++ further) = resample target bars ++ resample target further := by
    refine resample_append fun end_row found first begins => ?_
    obtain rfl : last = end_row := Option.some.inj (ends.symm.trans found)
    exact apart first begins
  rw [split]
  apply visible_append
  cases further with
  | nil => rfl
  | cons first rest =>
    refine visible_gather_eq_nil late fun dated => ?_
    -- Otherwise the first further bar and the last bar would have one date and be put together.
    have forth : last.date.notAfter first.date :=
      across last (List.mem_of_getLast? ends) first List.mem_cons_self
    have back : first.date.notAfter last.date := notAfter_trans dated (notAfter_last early member ends)
    have same : last.date = first.date := notAfter_antisymm forth back
    have joined : target.joins last.date first.date = true := by rw [same, joins_self coarse]
    rw [apart first rfl] at joined
    cases joined

private theorem hasColumn_absorb (bar next : Bar) (name : String) :
    (bar.absorb next).hasColumn name = (bar.hasColumn name || next.hasColumn name) := by
  simp only [Bar.hasColumn, Bar.absorb, Dictionary.contains_merge]
  cases Bar.isStandard name <;> simp

private theorem any_hasColumn_gather (bar : Bar) (rest : List Bar) (name : String) :
    (bar.gather target rest).any (·.hasColumn name) = (bar :: rest).any (·.hasColumn name) := by
  induction rest generalizing bar with
  | nil => rfl
  | cons next rest ih =>
    rw [Bar.gather]
    split
    · rw [ih, List.any_cons, List.any_cons, List.any_cons, hasColumn_absorb, Bool.or_assoc]
    · rw [List.any_cons, ih]
      rfl

theorem any_hasColumn_resample (bars : List Bar) (name : String) :
    (resample target bars).any (·.hasColumn name) = bars.any (·.hasColumn name) := by
  cases bars with
  | nil => rfl
  | cons bar rest => exact any_hasColumn_gather bar rest name

end Screener
