import Screener.Proofs.Evaluation.Future
import Screener.Proofs.Indicator.WarmUp

/-! How far back a filter needs bars. The window counts bars of all timeframes alike and is compared with base
positions. That loses nothing: a timeframe put together of the base bars never shows more bars than the base
does, and an operand that is shown fewer bars than its lookback has no value. -/
namespace Screener
open Screener.Filter (Operand Condition Expression)

namespace Filter

theorem foldl_max_le_iff {counts : List Nat} {least n : Nat} :
    counts.foldl max least ≤ n ↔ least ≤ n ∧ ∀ count ∈ counts, count ≤ n := by
  induction counts generalizing least with
  | nil => simp
  | cons count rest ih => rw [List.foldl_cons, ih, Nat.max_le, List.forall_mem_cons, and_assoc]

theorem Expression.window_le_iff {e : Expression} {n : Nat} :
    e.window ≤ n ↔ 1 ≤ n ∧ ∀ operand ∈ e.operands, operand.lookback ≤ n := by
  simp only [window, foldl_max_le_iff, operands, List.forall_mem_map, List.forall_mem_flatMap, Condition.lookback,
    Condition.operands, Nat.max_le, List.forall_mem_cons, List.not_mem_nil, false_imp_iff, implies_true, and_true]

theorem Expression.exists_lookback_of_lt_window {e : Expression} {n : Nat} (some_bar : 1 ≤ n) (early : n < e.window) :
    ∃ operand ∈ e.operands, n < operand.lookback := by
  rw [← Nat.not_le, window_le_iff] at early
  simpa [some_bar] using early

end Filter

namespace Evaluation

theorem fromEnd?_eq_some_iff {bars : List Bar} {offset spot : Nat} :
    fromEnd? bars offset = some spot ↔ spot + offset + 1 = bars.length := by
  unfold fromEnd?
  split <;> simp <;> omega

private theorem readEnd?_of_few {shown : Timeframe → List Bar} {operand : Operand} {n : Nat}
    (few : ∀ source ∈ operand.source?, (shown source.1).length ≤ n) (short : n < operand.lookback) :
    readEnd? shown operand = none := by
  cases operand with
  | constant x => exact absurd short (Nat.not_lt_zero n)
  | column name place =>
    have shown_few : (shown place.timeframe).length ≤ n := few _ rfl
    have reach : n < place.offset + 1 := Nat.lt_of_lt_of_le short (Size.add_le _ _)
    have outside : fromEnd? (shown place.timeframe) place.offset = none := if_neg (by omega)
    rw [readEnd?, outside, Option.bind_none]
  | indicator which field name place =>
    have shown_few : (shown place.timeframe).length ≤ n := few _ rfl
    have reach : n < place.offset + which.minHistory := Nat.lt_of_lt_of_le short (Size.add_le _ _)
    rw [readEnd?]
    cases found : fromEnd? (shown place.timeframe) place.offset with
    | none => rfl
    | some spot =>
      have counted := fromEnd?_eq_some_iff.1 found
      exact Indicator.reading?_of_early which _ field (by omega)

namespace Frame

private theorem seen_eq_nil {frame : Frame} {timeframe : Timeframe} {position : Nat}
    (outside : frame.history.bars[position]? = none) : frame.seen timeframe position = [] := by
  have behind : ¬position < frame.history.bars.length := Nat.not_lt.2 (List.getElem?_eq_none_iff.1 outside)
  simp [seen, aligned?, behind]

variable {symbol : String} {base timeframe : Timeframe} {bars : List Bar} {e : Expression}

private theorem length_seen_le (read : timeframe ∈ e.timeframes)
    (reachable : ((History.ofBars symbol base bars).bars? timeframe).isSome ∨ timeframe.derivableFrom base)
    (ascending : Ascending bars) (position : Nat) :
    ((gather (.ofBars symbol base bars) e).seen timeframe position).length ≤ position + 1 := by
  cases here : bars[position]? with
  | none =>
    rw [seen_eq_nil (by rwa [history_gather, History.bars_ofBars])]
    exact Nat.zero_le _
  | some row =>
    by_cases own : timeframe = base
    · obtain ⟨inside, -⟩ := List.getElem?_eq_some_iff.1 here
      have first : (gather (.ofBars symbol base bars) e).seen base position = _ :=
        seen_base bars_gather_base (by simpa using inside)
      rw [own, first]
      exact List.length_take_le _ _
    · have given : (History.ofBars symbol base bars).bars? timeframe = none := by
        simp [History.bars?, History.ofBars, own]
      have put : (gather (.ofBars symbol base bars) e).bars timeframe = resample timeframe bars := by
        rw [bars_gather read, History.barsFor, given, Option.getD_none, History.bars_ofBars]
      have coarse : timeframe ≠ .intraday := coarse_of_derivableFrom (by simpa [given] using reachable) own
      rw [seen_of_ascending own (put ▸ ascending_resample ascending) (by simpa using here), put]
      exact length_visible_resample_le ascending coarse here

end Frame

private theorem matchedBy_eq_false {read : Operand → Option Float} {e : Expression} (every : e.logic = .all)
    {operand : Operand} (member : operand ∈ e.operands) (silent : read operand = none) : matchedBy read e = false := by
  obtain ⟨c, inside, side⟩ := List.mem_flatMap.1 member
  have fails : meetsBy read c = false := by
    rcases List.mem_pair.1 side with rfl | rfl
    · rw [meetsBy, silent]
    · rw [meetsBy, silent]
      cases read c.left <;> rfl
  simp only [matchedBy, every]
  exact List.all_eq_false.2 ⟨c, inside, by simp [fails]⟩

/-- The window drops no match: where fewer base bars lie behind a position than the window counts, a filter of which
every condition has to hold does not hold, whatever timeframes its operands are read in. -/
theorem not_matched_of_lt_window {symbol : String} {base : Timeframe} {bars : List Bar} {e : Expression}
    {frame : Frame} (prepared : Frame.prepare (.ofBars symbol base bars) e = .ok frame) (ascending : Ascending bars)
    (every : e.logic = .all) {position : Nat} (early : position + 1 < e.window) (before : List Call) :
    frame.answer e before (.filter position) = .decision false := by
  obtain ⟨rfl, reachable, -⟩ := Frame.prepare_eq_ok_iff.1 prepared
  -- One operand without a value is enough, so the one with the longest lookback decides.
  obtain ⟨operand, member, short⟩ := Expression.exists_lookback_of_lt_window (Nat.le_add_left 1 position) early
  have few : ∀ source ∈ operand.source?,
      ((Frame.gather (.ofBars symbol base bars) e).seen source.1 position).length ≤ position + 1 := by
    intro source reads
    have read : source.1 ∈ e.timeframes := mem_timeframes_of_source member reads
    exact Frame.length_seen_le read (reachable _ read) ascending position
  have silent : readEnd? ((Frame.gather (.ofBars symbol base bars) e).seen · position) operand = none :=
    readEnd?_of_few few short
  rw [← Frame.read?_eq_readEnd? Frame.bars_gather_base] at silent
  rw [Frame.answer_eq, Call.answerBy, matchedBy_eq_false every member silent]

def Sample.patient : Expression :=
  ⟨.all, [⟨.column "close" ⟨.weekly, 1⟩, .atMost, .column "close" ⟨.weekly, 1⟩⟩,
    ⟨.column "close" ⟨.weekly, 1⟩, .less, .indicator (.rsi Size.most) .value "close" ⟨.daily, 1⟩⟩], by decide⟩

theorem not_matched_of_lt_window_sample :
    Frame.prepare Sample.history Sample.patient = .ok (.gather Sample.history Sample.patient) ∧
      Ascending Sample.history.bars ∧ 3 + 1 < Sample.patient.window ∧
      (Frame.gather Sample.history Sample.patient).answer Sample.patient [.explanation 2] (.filter 3) =
        .decision false := by
  have prepared : Frame.prepare Sample.history Sample.patient = .ok (.gather Sample.history Sample.patient) := rfl
  have ascending : Ascending Sample.history.bars := by decide
  have early : 3 + 1 < Sample.patient.window := by decide
  exact ⟨prepared, ascending, early, not_matched_of_lt_window prepared ascending rfl early [.explanation 2]⟩

end Evaluation
end Screener
