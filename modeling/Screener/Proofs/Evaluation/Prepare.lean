import Screener.Evaluation.Frame

/-! What a prepared frame is made of. Preparing can fail in two ways; if it does not, the frame has the bars
of the history and, for each timeframe read beyond those, the base bars put together. -/
namespace Screener

/-- The bars in which operands of a timeframe are read: those given, or else the base bars put together. -/
def History.barsFor (history : History) (timeframe : Timeframe) : List Bar :=
  (history.bars? timeframe).getD (resample timeframe history.bars)

namespace Evaluation
open Screener.Filter (Operand Expression)

variable {history : History} {e : Expression}

theorem mem_timeframes_of_source {operand : Operand} {source : Timeframe × String} (member : operand ∈ e.operands)
    (reads : operand.source? = some source) : source.1 ∈ e.timeframes := by
  have listed : source ∈ e.sources := List.mem_filterMap.2 ⟨operand, member, reads⟩
  refine List.mem_filter.2 ⟨?_, List.any_eq_true.2 ⟨source, listed, by simp⟩⟩
  cases source.1 <;> decide

namespace Frame

@[simp] theorem history_gather : (gather history e).history = history := rfl

theorem bars_gather {timeframe : Timeframe} (read : timeframe ∈ e.timeframes) :
    (gather history e).bars timeframe = history.barsFor timeframe := by
  cases present : history.bars? timeframe <;> simp [bars, gather, History.barsFor, read, present]

theorem bars_gather_base : (gather history e).bars history.base = history.bars := by
  simp [bars, gather, History.bars?_base]

/-- Preparing succeeds if every timeframe read is there or can be put together, and every column is in some bar of
its timeframe; nothing else is in the frame then than what was gathered. -/
theorem prepare_eq_ok_iff {frame : Frame} :
    prepare history e = .ok frame ↔
      frame = gather history e ∧
      (∀ timeframe ∈ e.timeframes, (history.bars? timeframe).isSome ∨ timeframe.derivableFrom history.base) ∧
      ∀ source ∈ e.columns, ((gather history e).bars source.1).any (·.hasColumn source.2) := by
  unfold prepare
  dsimp only
  split
  · rename_i timeframe found
    have read : timeframe ∈ e.timeframes := List.mem_of_find?_eq_some found
    have beyond := List.find?_some found
    rw [Bool.and_eq_true, Bool.not_eq_true'] at beyond
    refine ⟨fun failed => (nomatch failed), fun ⟨_, reachable, _⟩ => ?_⟩
    rcases reachable timeframe read with given | derivable
    · rw [Option.isNone_iff_eq_none.1 beyond.1] at given
      cases given
    · rw [beyond.2] at derivable
      cases derivable
  · rename_i reachable
    split
    · rename_i timeframe column found
      have read : (timeframe, column) ∈ e.columns := List.mem_of_find?_eq_some found
      have absent := List.find?_some found
      refine ⟨fun failed => (nomatch failed), fun ⟨_, _, present⟩ => ?_⟩
      have there := present (timeframe, column) read
      rw [Bool.not_eq_true'] at absent
      rw [absent] at there
      cases there
    · rename_i present
      rw [List.find?_eq_none] at reachable present
      rw [Except.ok.injEq]
      refine ⟨fun same => ⟨same.symm, fun timeframe read => ?_, fun source read => ?_⟩, fun ok => ok.1.symm⟩
      · have reached := reachable timeframe read
        cases given : history.bars? timeframe with
        | none => exact .inr (by simpa [given] using reached)
        | some bars => exact .inl rfl
      · simpa using present source read

theorem history_of_prepare {frame : Frame} (prepared : prepare history e = .ok frame) : frame.history = history := by
  rw [(prepare_eq_ok_iff.1 prepared).1, history_gather]

end Frame
end Evaluation
end Screener
