import Screener.Arithmetic
import Screener.Bar
import Screener.Timeframe

/-! Bars of a coarser timeframe, put together from finer ones. A bar of the result carries the date of
the last bar it was made of, so that a look-up as of a date never meets a bar that closes later. -/
namespace Screener

/-- The bar that covers both; `next` follows `bar` in time. -/
def Bar.absorb (bar next : Bar) : Bar :=
  { bar with
    date := next.date
    high := greater bar.high next.high
    low := lesser bar.low next.low
    close := next.close
    volume := bar.volume + next.volume
    extra := bar.extra.merge next.extra }

/-- Closes the bar that is being put together as soon as the next one does not join it. -/
def Bar.gather (target : Timeframe) (bar : Bar) : List Bar → List Bar
  | [] => [bar]
  | next :: rest =>
    if target.joins bar.date next.date then Bar.gather target (bar.absorb next) rest
    else bar :: Bar.gather target next rest

def resample (target : Timeframe) : List Bar → List Bar
  | [] => []
  | bar :: rest => bar.gather target rest

theorem gather_intraday (bar : Bar) (rest : List Bar) : bar.gather .intraday rest = bar :: rest := by
  induction rest generalizing bar with
  | nil => rfl
  | cons next rest ih => simp [Bar.gather, Timeframe.joins, ih]

theorem resample_intraday (bars : List Bar) : resample .intraday bars = bars := by
  cases bars with
  | nil => rfl
  | cons bar rest => exact gather_intraday bar rest

end Screener
