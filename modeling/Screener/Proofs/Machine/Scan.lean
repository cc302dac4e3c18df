import Screener.Proofs.Evaluation.Window
import Screener.Proofs.Machine.Evaluation
import Screener.Scan.Run

/-! Scanning a symbol as a machine does. The rows are numbered, and those in front of the first full window are passed
over. -/
namespace Screener.Machine
open Screener.Filter (Operand Condition Expression)
open Indicator (Memo Key)
open Evaluation (Frame Call)

def matchAt (frame : Frame) (e : Expression) (explained : Bool) (bar : Bar) (position : Nat) :
    Run (Option Scan.Match) := do
  let symbol := frame.history.symbol
  if explained then
    let verdict ← explain frame e position
    return if verdict.matched then some (.ofBar symbol position bar (some verdict)) else none
  else
    return if ← matched frame e position then some (.ofBar symbol position bar none) else none

def matchRows (frame : Frame) (e : Expression) (options : Scan.Options) : List (Bar × Nat) → Run (List Scan.Match)
  | [] => pure []
  | (bar, position) :: rest => do
    if options.admits bar.date then
      let found ← matchAt frame e options.explain bar position
      let others ← matchRows frame e options rest
      return found.toList ++ others
    else matchRows frame e options rest

def scanSymbol (e : Expression) (options : Scan.Options) (stop : Bool) (history : History) : Step Scan.Outcome := do
  let required ← window e
  if stop then return .cancelled
  else if history.bars.isEmpty then return .skipped ⟨history.symbol, 0, required⟩
  else
    match Frame.prepare history e with
    | .error problem => return .failed ⟨history.symbol, problem⟩
    | .ok frame =>
      if history.bars.length < required then return .skipped ⟨history.symbol, history.bars.length, required⟩
      else
        let rows ← number Size.most 0 history.bars
        let (found, _) ← matchRows frame e options (rows.drop (← sub required 1)) Memo.empty
        return .matched found

section
variable {frame : Frame} {keys : List Key} {e : Expression}

private theorem follows_matchAt (few : Few frame) (room : keys.length ≤ Size.most)
    (listed : ∀ c ∈ e.conditions, Listed keys c) (explained : Bool) (bar : Bar) (position : Nat) :
    Follows keys (matchAt frame e explained bar position) (Scan.matchAt frame e explained bar position) := by
  cases explained with
  | true => exact (follows_explain few room listed position).bind fun _ => .pure _
  | false => exact (follows_matched few room listed position).bind fun _ => .pure _

private theorem follows_matchRows (few : Few frame) (room : keys.length ≤ Size.most)
    (listed : ∀ c ∈ e.conditions, Listed keys c) (options : Scan.Options) (rows : List (Bar × Nat)) :
    Follows keys (matchRows frame e options rows) (Scan.matchRows frame e options rows) := by
  induction rows with
  | nil => exact .pure []
  | cons row rest ih =>
    obtain ⟨bar, position⟩ := row
    unfold matchRows Scan.matchRows
    split
    · exact (follows_matchAt few room listed options.explain bar position).bind fun _ => ih.bind fun _ => .pure _
    · exact ih

end

section
variable {history : History} {e : Expression}

private theorem few_gather (few : ∀ timeframe, ∀ bars ∈ history.bars? timeframe, bars.length < mostWeight) :
    Few (Frame.gather history e) := by
  intro timeframe
  have base := few _ _ history.bars?_base
  cases given : history.bars? timeframe with
  | some bars =>
    have same : (Frame.gather history e).bars timeframe = bars := by simp [Frame.bars, Frame.gather, given]
    rw [same]
    exact few timeframe bars given
  | none =>
    by_cases read : timeframe ∈ e.timeframes
    · rw [Frame.bars_gather read, History.barsFor, given]
      exact Nat.lt_of_le_of_lt (length_resample_le timeframe history.bars) base
    · have nothing : (Frame.gather history e).bars timeframe = [] := by simp [Frame.bars, Frame.gather, given, read]
      rw [nothing]
      exact Nat.zero_lt_of_lt base

private theorem window_pos (e : Expression) : 1 ≤ e.window := (Expression.window_le_iff.1 (Nat.le_refl _)).1

private theorem scanSymbol_eq (few : ∀ timeframe, ∀ bars ∈ history.bars? timeframe, bars.length < mostWeight)
    (options : Scan.Options) (stop : Bool) :
    scanSymbol e options stop history = .ok (Scan.scanSymbol e options stop history) := by
  rw [scanSymbol, window_eq, ok_bind, Scan.scanSymbol]
  cases stop with
  | true => rfl
  | false =>
    cases history.bars.isEmpty with
    | true => rfl
    | false =>
      cases prepared : Frame.prepare history e with
      | error problem => rfl
      | ok frame =>
        obtain ⟨rfl, -⟩ := Frame.prepare_eq_ok_iff.1 prepared
        simp only [Bool.false_eq_true, if_false]
        split
        · rfl
        · have enough := Nat.le_trans (length_keysOf e []) (by decide : 2 * Filter.mostConditions + 0 ≤ Size.most)
          have rows : Follows _ (matchRows (Frame.gather history e) e options _) _ :=
            follows_matchRows (few_gather few) enough (listed_conditions e []) options
              (history.bars.zipIdx.drop (e.window - 1))
          rw [number_places (few _ _ history.bars?_base), ok_bind]
          simp only [sub_eq (window_pos e), ok_bind, (rows .empty (holds_empty _)).1]
          rfl

/-- Whatever the periods and offsets of a filter are, in whatever order the bars stand and at whatever positions it is
evaluated, a machine gives what evaluating gives, and so it does when it scans a symbol: no number leaves its word, no
slice its list, and each series that is looked up is there. It takes that each timeframe has less than 2³¹ - 1 bars, and
that the operands which are handed in beside those of the filter can be counted in a word. -/
theorem evaluation_never_fails (few : ∀ timeframe, ∀ bars ∈ history.bars? timeframe, bars.length < mostWeight) :
    (∀ frame, Frame.prepare history e = .ok frame → ∀ (others : List Operand) (calls : List Call),
      2 * Filter.mostConditions + others.length ≤ Size.most → (∀ call ∈ calls, call.handed ⊆ e.operands ++ others) →
        answers frame e calls = .ok (frame.answers e calls)) ∧
      ∀ options stop, scanSymbol e options stop history = .ok (Scan.scanSymbol e options stop history) := by
  refine ⟨fun frame prepared others calls room handed => ?_, scanSymbol_eq few⟩
  obtain ⟨rfl, -⟩ := Frame.prepare_eq_ok_iff.1 prepared
  exact answers_eq (few_gather few) room handed

end

open Evaluation.Sample (filter frame calls prepare_history)

theorem Sample.few_bars :
    ∀ timeframe, ∀ bars ∈ Evaluation.Sample.history.bars? timeframe, bars.length < mostWeight := by
  intro timeframe
  cases timeframe <;> decide

theorem Sample.handed_calls : ∀ call ∈ calls, call.handed ⊆ filter.operands ++ [] := by
  simp [calls, Call.handed, filter, Expression.operands, Condition.operands, Evaluation.Sample.rising]

theorem evaluation_never_fails_sample :
    (∀ timeframe, ∀ bars ∈ Evaluation.Sample.history.bars? timeframe, bars.length < mostWeight) ∧
      Frame.prepare Evaluation.Sample.history filter = .ok frame ∧
      2 * Filter.mostConditions + ([] : List Operand).length ≤ Size.most ∧
      (∀ call ∈ calls, call.handed ⊆ filter.operands ++ []) ∧
      answers frame filter calls = .ok (frame.answers filter calls) ∧
      scanSymbol filter {} false Evaluation.Sample.history =
        .ok (Scan.scanSymbol filter {} false Evaluation.Sample.history) := by
  have room : 2 * Filter.mostConditions + ([] : List Operand).length ≤ Size.most := by decide
  obtain ⟨evaluated, scanned⟩ := evaluation_never_fails Sample.few_bars
  exact ⟨Sample.few_bars, prepare_history, room, Sample.handed_calls,
    evaluated frame prepare_history [] calls room Sample.handed_calls, scanned {} false⟩

end Screener.Machine
