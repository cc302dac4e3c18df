import Screener.Resample

/-! The bars of one symbol. The base timeframe is what the source delivered and what positions count in;
bars of other timeframes may be attached. -/
namespace Screener

structure History where
  symbol : String
  base : Timeframe
  series : Timeframe.Each (Option (List Bar))
  has_base : ((series.get base).isSome : Prop)

namespace History

def ofBars (symbol : String) (base : Timeframe) (bars : List Bar) : History where
  symbol
  base
  series := .ofFunction fun timeframe => if timeframe = base then some bars else none
  has_base := by simp

def attach (history : History) (timeframe : Timeframe) (bars : List Bar) : History :=
  if h : timeframe = history.base then history
  else
    { history with
      series := history.series.set timeframe (some bars)
      has_base := by simp [Ne.symm h, history.has_base] }

def bars? (history : History) (timeframe : Timeframe) : Option (List Bar) := history.series.get timeframe

def bars (history : History) : List Bar := (history.series.get history.base).get history.has_base

theorem bars?_base (history : History) : history.bars? history.base = some history.bars :=
  (Option.some_get history.has_base).symm

@[simp] theorem bars_ofBars (symbol : String) (base : Timeframe) (bars : List Bar) :
    (ofBars symbol base bars).bars = bars := by
  simp [History.bars, ofBars]

theorem bars?_attach (history : History) (timeframe other : Timeframe) (bars : List Bar) :
    (history.attach timeframe bars).bars? other =
      if other = timeframe ∧ timeframe ≠ history.base then some bars else history.bars? other := by
  by_cases same : timeframe = history.base <;> simp [attach, bars?, same]

def span? (history : History) : Option (Calendar.Timestamp × Calendar.Timestamp) :=
  match history.bars.head?, history.bars.getLast? with
  | some first, some last => some (first.date, last.date)
  | _, _ => none

def hasColumn (history : History) (timeframe : Timeframe) (name : String) : Bool :=
  match history.bars? timeframe with
  | some bars => bars.any (·.hasColumn name)
  | none => false

end History
end Screener
