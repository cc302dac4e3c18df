import Screener.Proofs.Calendar.Week
import Screener.Proofs.Dictionary
import Screener.Proofs.Resample
import Mathlib.Data.List.SplitBy

/-! Resampled bars as totals. The bars of one period that follow each other make up one bar of the coarser timeframe, and
of bars in the order of time all those of a period follow each other. -/
namespace Screener
open Calendar (Date Timestamp)

/-- What bars have in common that are put together. -/
inductive Period where
  | place (index : Nat)
  | day (date : Date)
  | week (year number : Int)
  deriving DecidableEq

def Timeframe.period (target : Timeframe) (row : Bar × Nat) : Period :=
  match target with
  | .intraday => .place row.2
  | .daily => .day row.1.date.date
  | .weekly => .week row.1.date.date.isoWeek.1 row.1.date.date.isoWeek.2

/-- Bars with their places, cut into stretches of one period each. Neighbouring stretches have different periods, so none
could be longer. -/
structure Stretches (target : Timeframe) (bars : List Bar) (runs : List (List (Bar × Nat))) : Prop where
  whole : runs.flatten = bars.zipIdx
  nonempty : [] ∉ runs
  together : ∀ run ∈ runs, ∀ a ∈ run, ∀ b ∈ run, target.period a = target.period b
  apart : runs.IsChain fun run next => ∀ a ∈ run, ∀ b ∈ next, target.period a ≠ target.period b

/-- A bar stands for a first one and those that follow it. -/
structure Bar.Totals (made first : Bar) (rest : List Bar) : Prop where
  symbol : made.symbol = first.symbol
  opening : made.opening = first.opening
  date : made.date = (rest.getLastD first).date
  close : made.close = (rest.getLastD first).close
  high : made.high = (rest.map Bar.high).foldl greater first.high
  low : made.low = (rest.map Bar.low).foldl lesser first.low
  volume : made.volume = (rest.map Bar.volume).foldl (· + ·) first.volume
  /-- A column has the last value that is given for it. -/
  extra : ∀ name, made.extra.get? name = (first :: rest).reverse.findSome? (·.extra.get? name)

variable {target : Timeframe}

private theorem totals_foldl (first : Bar) (rest : List Bar) : (rest.foldl Bar.absorb first).Totals first rest := by
  induction rest generalizing first with
  | nil => exact ⟨rfl, rfl, rfl, rfl, rfl, rfl, rfl, fun name => by simp⟩
  | cons next rest ih =>
    obtain ⟨symbol, opening, date, close, high, low, volume, extra⟩ := ih (first.absorb next)
    have last : (rest.getLastD (first.absorb next)).date = ((next :: rest).getLastD first).date ∧
        (rest.getLastD (first.absorb next)).close = ((next :: rest).getLastD first).close := by
      cases rest <;> exact ⟨rfl, rfl⟩
    refine ⟨symbol, opening, date.trans last.1, close.trans last.2, high, low, volume, fun name => ?_⟩
    rw [List.foldl_cons, extra]
    simp only [List.reverse_cons, List.findSome?_append, List.findSome?_cons, List.findSome?_nil, Bar.absorb,
      Dictionary.get?_merge, List.append_assoc, List.cons_append, List.nil_append]
    cases rest.reverse.findSome? (·.extra.get? name) <;> cases next.extra.get? name <;>
      cases first.extra.get? name <;> rfl

private theorem gather_of_joined {first : Bar} {rest : List Bar}
    (joined : (first :: rest).IsChain fun a b => target.joins a.date b.date = true) :
    first.gather target rest = [rest.foldl Bar.absorb first] := by
  induction rest generalizing first with
  | nil => rfl
  | cons next rest ih =>
    obtain ⟨step, others⟩ := List.isChain_cons_cons.1 joined
    rw [Bar.gather, if_pos step, ih, List.foldl_cons]
    cases rest with
    | nil => exact .singleton _
    | cons third rest => exact .cons_cons (List.isChain_cons_cons.1 others).1 (List.isChain_cons_cons.1 others).2

private theorem forall₂_resample {runs : List (List Bar)} (nonempty : [] ∉ runs)
    (joined : ∀ run ∈ runs, run.IsChain fun a b => target.joins a.date b.date = true)
    (apart : runs.IsChain fun run next => ∀ a ∈ run, ∀ b ∈ next, target.joins a.date b.date = false) :
    List.Forall₂ (fun run made => ∃ first rest, run = first :: rest ∧ made = rest.foldl Bar.absorb first)
      runs (resample target runs.flatten) := by
  induction runs with
  | nil => exact .nil
  | cons run more ih =>
    obtain ⟨ne, more_nonempty⟩ := not_or.1 (mt List.mem_cons.2 nonempty)
    have alone : ∀ last ∈ run.getLast?, ∀ first ∈ more.flatten.head?, target.joins last.date first.date = false := by
      intro last ends first begins
      cases more with
      | nil => simp at begins
      | cons next more =>
        have inside : first ∈ next := by
          cases next with
          | nil => simp at more_nonempty
          | cons bar next =>
            obtain rfl : bar = first := by simpa using begins
            exact List.mem_cons_self
        exact (List.isChain_cons_cons.1 apart).1 last (List.mem_of_getLast? ends) first inside
    cases run with
    | nil => exact absurd rfl ne
    | cons first rest =>
      have whole : resample target (first :: rest) = [rest.foldl Bar.absorb first] :=
        gather_of_joined (joined _ List.mem_cons_self)
      rw [List.flatten_cons, resample_append alone, whole]
      exact .cons ⟨first, rest, rfl, rfl⟩
        (ih more_nonempty (fun run member => joined run (List.mem_cons_of_mem _ member)) apart.tail)

/-- Bars join exactly if they share a period. In the finest timeframe a bar shares its place with itself only, and yet joins
nothing, so there the bars have to be at different places. -/
theorem joins_iff_period {a b : Bar × Nat} (places : target = .intraday → a.2 ≠ b.2) :
    target.joins a.1.date b.1.date = true ↔ target.period a = target.period b := by
  cases target with
  | intraday => simp [Timeframe.joins, Timeframe.period, places rfl]
  | daily => simp [Timeframe.joins, Timeframe.period]
  | weekly =>
    rw [Timeframe.joins, beq_iff_eq, ← Date.isoWeek_eq_iff, Prod.ext_iff]
    simp [Timeframe.period]

private theorem stretches_splitBy (target : Timeframe) (bars : List Bar) :
    Stretches target bars (bars.zipIdx.splitBy fun a b => target.period a == target.period b) := by
  have together : ∀ run ∈ bars.zipIdx.splitBy fun a b => target.period a == target.period b,
      ∀ a ∈ run, ∀ b ∈ run, target.period a = target.period b := by
    intro run member
    have chain : run.IsChain fun a b => target.period a = target.period b :=
      (List.isChain_of_mem_splitBy member).imp fun _ _ same => eq_of_beq same
    have : IsTrans (Bar × Nat) fun a b => target.period a = target.period b := ⟨fun _ _ _ => Eq.trans⟩
    have : Std.Symm fun a b : Bar × Nat => target.period a = target.period b := ⟨fun _ _ => Eq.symm⟩
    exact chain.pairwise.forall_of_forall fun _ _ => rfl
  refine ⟨List.flatten_splitBy _ _, List.nil_notMem_splitBy _ _, together, ?_⟩
  refine List.IsChain.imp_of_mem_imp (fun run next here there edge a a_mem b b_mem same => ?_)
    (List.isChain_getLast_head_splitBy _ _)
  obtain ⟨run_ne, next_ne, differ⟩ := edge
  refine ne_of_beq_false differ ?_
  rw [together run here _ (List.getLast_mem run_ne) a a_mem, same,
    together next there b b_mem _ (List.head_mem next_ne)]

namespace Stretches
variable {bars : List Bar} {runs : List (List (Bar × Nat))}

private theorem bars_eq (cut : Stretches target bars runs) : (runs.map (·.map Prod.fst)).flatten = bars := by
  rw [← List.map_flatten, cut.whole, List.zipIdx_map_fst]

theorem places (cut : Stretches target bars runs) :
    (∀ run ∈ runs, run.Pairwise fun a b => a.2 ≠ b.2) ∧
      runs.Pairwise fun run next => ∀ a ∈ run, ∀ b ∈ next, a.2 ≠ b.2 := by
  have ascending : (bars.zipIdx.map Prod.snd).Pairwise (· < ·) := by
    rw [List.zipIdx_map_snd]
    exact List.pairwise_lt_range'
  have distinct : bars.zipIdx.Pairwise fun a b => a.2 ≠ b.2 := (List.pairwise_map.1 ascending).imp Nat.ne_of_lt
  rw [← cut.whole] at distinct
  exact List.pairwise_flatten.1 distinct

private theorem forall₂_totals (cut : Stretches target bars runs) :
    List.Forall₂ (fun run made => ∃ first rest, run.map Prod.fst = first :: rest ∧ made = rest.foldl Bar.absorb first)
      runs (resample target bars) := by
  obtain ⟨inside, across⟩ := cut.places
  have joined : ∀ run ∈ runs.map (·.map Prod.fst), run.IsChain fun a b => target.joins a.date b.date = true := by
    intro run member
    obtain ⟨rows, here, rfl⟩ := List.mem_map.1 member
    have chain : rows.Pairwise fun a b => target.joins a.1.date b.1.date = true :=
      (inside rows here).imp_of_mem fun a_mem b_mem places =>
        (joins_iff_period fun _ => places).2 (cut.together rows here _ a_mem _ b_mem)
    exact (List.pairwise_map.2 chain).isChain
  have apart : (runs.map (·.map Prod.fst)).IsChain
      fun run next => ∀ a ∈ run, ∀ b ∈ next, target.joins a.date b.date = false := by
    refine (List.isChain_map _).2 (List.isChain_iff_getElem.2 fun i next a a_mem b b_mem => ?_)
    obtain ⟨x, x_mem, rfl⟩ := List.mem_map.1 a_mem
    obtain ⟨y, y_mem, rfl⟩ := List.mem_map.1 b_mem
    have places : x.2 ≠ y.2 :=
      List.pairwise_iff_getElem.1 across i (i + 1) (Nat.lt_of_succ_lt next) next (Nat.lt_succ_self i) x x_mem y y_mem
    have periods : target.period x ≠ target.period y := List.isChain_iff_getElem.1 cut.apart i next x x_mem y y_mem
    exact Bool.eq_false_iff.2 fun joins => periods ((joins_iff_period fun _ => places).1 joins)
  have nonempty : [] ∉ runs.map (·.map Prod.fst) := by
    intro member
    obtain ⟨rows, member, empty⟩ := List.mem_map.1 member
    exact cut.nonempty (List.map_eq_nil_iff.1 empty ▸ member)
  have made := forall₂_resample nonempty joined apart
  rw [cut.bars_eq] at made
  exact List.forall₂_map_left_iff.1 made

end Stretches

private theorem date_rank_mono {a b : Timestamp} (before : a.notAfter b) : a.date.rank ≤ b.date.rank := by
  have a_clock := a.clock.rank_lt
  have b_clock := b.clock.rank_lt
  simp only [Timestamp.notAfter, decide_eq_true_eq] at before
  simp only [Timestamp.rank] at before
  omega

private theorem joins_between {a b c : Timestamp} (first : a.notAfter b) (second : b.notAfter c)
    (joined : target.joins a c = true) : target.joins a b = true := by
  have forth := date_rank_mono first
  have back := date_rank_mono second
  cases target with
  | intraday => cases joined
  | daily =>
    have same : a.date = c.date := eq_of_beq joined
    exact beq_iff_eq.2 (Date.rank_injective (Int.le_antisymm forth (same ▸ back)))
  | weekly =>
    have same : a.date.week = c.date.week := eq_of_beq joined
    exact beq_iff_eq.2 (Int.le_antisymm (Date.week_mono forth) (same ▸ Date.week_mono back))

namespace Stretches
variable {bars : List Bar} {runs : List (List (Bar × Nat))}

theorem ordered (cut : Stretches target bars runs) (ascending : Ascending bars) :
    (∀ run ∈ runs, Ascending (run.map Prod.fst)) ∧
      runs.Pairwise fun run next => ∀ a ∈ run, ∀ b ∈ next, a.1.date.notAfter b.1.date := by
  have rows : bars.zipIdx.Pairwise fun a b => a.1.date.notAfter b.1.date := by
    rw [← List.zipIdx_map_fst 0 bars] at ascending
    exact List.pairwise_map.1 ascending
  rw [← cut.whole] at rows
  obtain ⟨inside, across⟩ := List.pairwise_flatten.1 rows
  exact ⟨fun run member => List.pairwise_map.2 (inside run member), across⟩

end Stretches

private theorem pairwise_apart {runs : List (List (Bar × Nat))} (nonempty : [] ∉ runs)
    (ordered : runs.Pairwise fun run next => ∀ a ∈ run, ∀ b ∈ next, a.1.date.notAfter b.1.date)
    (apart : runs.IsChain fun run next => ∀ a ∈ run, ∀ b ∈ next, ¬target.joins a.1.date b.1.date) :
    runs.Pairwise fun run next => ∀ a ∈ run, ∀ b ∈ next, ¬target.joins a.1.date b.1.date := by
  induction runs with
  | nil => exact .nil
  | cons run more ih =>
    obtain ⟨first, others⟩ := List.pairwise_cons.1 ordered
    obtain ⟨-, more_nonempty⟩ := not_or.1 (mt List.mem_cons.2 nonempty)
    refine List.pairwise_cons.2 ⟨?_, ih more_nonempty others apart.tail⟩
    cases more with
    | nil => simp
    | cons next more =>
      obtain ⟨edge, -⟩ := List.isChain_cons_cons.1 apart
      intro later member a a_mem b b_mem joined
      rcases List.mem_cons.1 member with rfl | beyond
      · exact edge a a_mem b b_mem joined
      · -- Some bar of the neighbour lies between the two, so it would join the first one.
        obtain ⟨c, c_mem⟩ := List.exists_mem_of_ne_nil next fun empty => more_nonempty (empty ▸ List.mem_cons_self)
        have to_next : a.1.date.notAfter c.1.date := first next List.mem_cons_self a a_mem c c_mem
        have to_later : c.1.date.notAfter b.1.date := (List.pairwise_cons.1 others).1 later beyond c c_mem b b_mem
        exact edge a a_mem c c_mem (joins_between to_next to_later joined)

private theorem countP_le_one {α : Type} {p : α → Bool} {xs : List α}
    (apart : xs.Pairwise fun a b => p a → p b → False) : xs.countP p ≤ 1 := by
  induction xs with
  | nil => exact Nat.zero_le 1
  | cons x rest ih =>
    obtain ⟨first, others⟩ := List.pairwise_cons.1 apart
    by_cases found : p x
    · rw [List.countP_cons_of_pos found, List.countP_eq_zero.2 fun y member => first y member found]
    · rw [List.countP_cons_of_neg found]
      exact ih others

private theorem pairwise_of_forall₂ {α β : Type} {R : α → β → Prop} {S : α → α → Prop} {T : β → β → Prop} {xs : List α}
    {ys : List β} (both : List.Forall₂ R xs ys) (pairs : xs.Pairwise S)
    (carry : ∀ {x x' y y'}, R x y → R x' y' → S x x' → T y y') : ys.Pairwise T := by
  obtain ⟨lengths, related⟩ := List.forall₂_iff_get.1 both
  refine List.pairwise_iff_getElem.2 fun i j i_lt j_lt before => ?_
  have pair := List.pairwise_iff_getElem.1 pairs i j (lengths ▸ i_lt) (lengths ▸ j_lt) before
  exact carry (related i _ i_lt) (related j _ j_lt) pair

namespace Stretches
variable {bars : List Bar} {runs : List (List (Bar × Nat))}

private theorem apart_of_ascending (cut : Stretches target bars runs) (ascending : Ascending bars)
    (coarse : target ≠ .intraday) :
    runs.Pairwise fun run next => ∀ a ∈ run, ∀ b ∈ next, ¬target.joins a.1.date b.1.date :=
  pairwise_apart cut.nonempty (cut.ordered ascending).2 <|
    cut.apart.imp fun _ _ periods a a_mem b b_mem joined =>
      periods a a_mem b b_mem ((joins_iff_period fun fine => absurd fine coarse).1 joined)

private theorem countP_period (cut : Stretches target bars runs) (ascending : Ascending bars)
    (coarse : target ≠ .intraday) {row : Bar × Nat} (member : row ∈ bars.zipIdx) :
    runs.countP (fun run => run.any fun other => target.period other = target.period row) = 1 := by
  refine Nat.le_antisymm (countP_le_one ?_) ?_
  · refine (cut.apart_of_ascending ascending coarse).imp fun apart here there => ?_
    simp only [List.any_eq_true, decide_eq_true_eq] at here there
    obtain ⟨a, a_mem, a_same⟩ := here
    obtain ⟨b, b_mem, b_same⟩ := there
    exact apart a a_mem b b_mem ((joins_iff_period fun fine => absurd fine coarse).2 (a_same.trans b_same.symm))
  · rw [← cut.whole] at member
    obtain ⟨run, here, inside⟩ := List.mem_flatten.1 member
    exact List.countP_pos_iff.2 ⟨run, here, List.any_eq_true.2 ⟨row, inside, decide_eq_true rfl⟩⟩

end Stretches

private theorem latest_date {run : List (Bar × Nat)} (ascending : Ascending (run.map Prod.fst)) {made first : Bar}
    {rest : List Bar} (shape : run.map Prod.fst = first :: rest) (totals : made.Totals first rest) :
    (∃ row ∈ run, made.date = row.1.date) ∧ ∀ row ∈ run, row.1.date.notAfter made.date := by
  have ends : (run.map Prod.fst).getLast? = some (rest.getLastD first) := by
    rw [shape, List.getLast?_cons, List.getLastD_eq_getLast?]
  rw [totals.date]
  refine ⟨?_, fun row member => notAfter_last ascending (List.mem_map_of_mem member) ends⟩
  obtain ⟨row, member, same⟩ := List.mem_map.1 (List.mem_of_getLast? ends)
  exact ⟨row, member, congrArg Bar.date same.symm⟩

private theorem rank_lt_of_apart (coarse : target ≠ .intraday) {a b : Timestamp} (before : a.notAfter b)
    (apart : ¬target.joins a b) : a.rank < b.rank := by
  refine lt_of_not_ge fun back => apart ?_
  rw [notAfter_antisymm before (decide_eq_true back)]
  exact joins_self coarse b

/-- Resampled bars are the totals of the longest stretches of bars with one period, one bar for each stretch and in the
same order. If the bars are in the order of time and the timeframe is a coarse one, then each period makes up one stretch
only, the resampled bars follow each other in time, and each is dated like the latest bar it is made of. -/
theorem resample_totals (target : Timeframe) (bars : List Bar) :
    ∃ runs, Stretches target bars runs ∧
      List.Forall₂ (fun run made => ∃ first rest, run.map Prod.fst = first :: rest ∧ made.Totals first rest)
        runs (resample target bars) ∧
      (Ascending bars → target ≠ .intraday →
        (∀ row ∈ bars.zipIdx,
          runs.countP (fun run => run.any fun other => target.period other = target.period row) = 1) ∧
        (resample target bars).Pairwise (fun made next => made.date.rank < next.date.rank) ∧
        List.Forall₂ (fun run made => (∃ row ∈ run, made.date = row.1.date) ∧ ∀ row ∈ run, row.1.date.notAfter made.date)
          runs (resample target bars)) := by
  have cut := stretches_splitBy target bars
  generalize bars.zipIdx.splitBy (fun a b => target.period a == target.period b) = runs at cut
  have totals : List.Forall₂ (fun run made => ∃ first rest, run.map Prod.fst = first :: rest ∧ made.Totals first rest)
      runs (resample target bars) := by
    refine cut.forall₂_totals.imp fun run made ⟨first, rest, shape, put_together⟩ => ⟨first, rest, shape, ?_⟩
    rw [put_together]
    exact totals_foldl first rest
  refine ⟨runs, cut, totals, fun ascending coarse => ?_⟩
  obtain ⟨inside, across⟩ := cut.ordered ascending
  have dated : List.Forall₂
      (fun run made => (∃ row ∈ run, made.date = row.1.date) ∧ ∀ row ∈ run, row.1.date.notAfter made.date)
      runs (resample target bars) := by
    refine List.forall₂_iff_get.2 ⟨totals.length_eq, fun i in_runs in_bars => ?_⟩
    obtain ⟨first, rest, shape, total⟩ := (List.forall₂_iff_get.1 totals).2 i in_runs in_bars
    exact latest_date (inside _ (List.get_mem runs ⟨i, in_runs⟩)) shape total
  refine ⟨fun row member => cut.countP_period ascending coarse member, ?_, dated⟩
  refine pairwise_of_forall₂ dated (across.and (cut.apart_of_ascending ascending coarse)) ?_
  rintro run next made made' ⟨⟨row, row_mem, date⟩, -⟩ ⟨⟨row', row_mem', date'⟩, -⟩ ⟨before, apart⟩
  rw [date, date']
  exact rank_lt_of_apart coarse (before row row_mem row' row_mem') (apart row row_mem row' row_mem')

def Sample.day (year : Int) (month day : Nat) (there : (Date.of? year month day).isSome) : Date :=
  (Date.of? year month day).get there

def Sample.newYear : List Bar :=
  [⟨"A", ⟨day 2020 12 31 (by decide), .midnight⟩, 1, 3, 1, 2, 10, .ofList [("vwap", 1.5)]⟩,
    ⟨"A", ⟨day 2020 12 31 (by decide), .endOfDay⟩, 2, 5, 2, 4, 20, .ofList [("vwap", 2.5)]⟩,
    ⟨"A", ⟨day 2021 1 3 (by decide), .midnight⟩, 4, 4, 0, 1, 30, .empty⟩,
    ⟨"A", ⟨day 2021 1 4 (by decide), .midnight⟩, 1, 2, 1, 2, 40, .empty⟩]

theorem resample_totals_sample :
    Ascending Sample.newYear ∧ Timeframe.weekly ≠ .intraday ∧
      ∃ runs, Stretches .weekly Sample.newYear runs ∧ runs.length = 2 ∧
        (∀ row ∈ Sample.newYear.zipIdx,
          runs.countP (fun run => run.any fun other => Timeframe.weekly.period other = Timeframe.weekly.period row) = 1) ∧
        (resample .weekly Sample.newYear).Pairwise (fun made next => made.date.rank < next.date.rank) := by
  have ascending : Ascending Sample.newYear := by decide
  have coarse : Timeframe.weekly ≠ .intraday := by decide
  obtain ⟨runs, cut, totals, in_order⟩ := resample_totals .weekly Sample.newYear
  obtain ⟨once, later, -⟩ := in_order ascending coarse
  have two : (resample .weekly Sample.newYear).length = 2 := rfl
  exact ⟨ascending, coarse, runs, cut, totals.length_eq.trans two, once, later⟩

end Screener
