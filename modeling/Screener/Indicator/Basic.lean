import Screener.Arithmetic
import Screener.Size
import Screener.Decimal.Form

/-! Technical indicators: what there are, what one gives for a value of its column, and how much history
it takes before the first value. -/
namespace Screener

/-- An indicator with its parameters. The width of Bollinger bands is counted in hundredths. -/
inductive Indicator where
  | sma (period : Nat)
  | ema (period : Nat)
  | wma (period : Nat)
  | rsi (period : Nat)
  | roc (period : Nat)
  | stddev (period : Nat)
  | macd (fast slow signal : Nat)
  | bollinger (period hundredths : Nat)
  deriving Repr, DecidableEq

namespace Indicator

inductive Field where
  | value
  | macdLine
  | macdSignal
  | macdHistogram
  | upperBand
  | middleBand
  | lowerBand
  deriving Repr, DecidableEq

inductive Output (α : Type) where
  | single (value : α)
  | macd (line signal histogram : α)
  | bands (upper middle lower : α)
  deriving Repr

def Output.get? {α : Type} : Output α → Field → Option α
  | .single value, .value => some value
  | .macd line _ _, .macdLine => some line
  | .macd _ signal _, .macdSignal => some signal
  | .macd _ _ histogram, .macdHistogram => some histogram
  | .bands upper _ _, .upperBand => some upper
  | .bands _ middle _, .middleBand => some middle
  | .bands _ _ lower, .lowerBand => some lower
  | _, _ => none

/-- An output, and whether it counts. It does not while history is lacking. -/
structure Point (α : Type) where
  valid : Bool
  output : Output α
  deriving Repr

abbrev Series (α : Type) := List (Point α)

/-- The field of the point at a position, if that point counts and the field is a finite number. -/
def Series.reading? {α : Type} [Arithmetic α] (series : Series α) (position : Nat) (field : Field) :
    Option α :=
  match series[position]? with
  | some point =>
    if point.valid then (point.output.get? field).filter Arithmetic.isFinite else none
  | none => none

/-- How many values, the current one among them, come before the first point that counts. -/
def minHistory : Indicator → Nat
  | .sma n | .ema n | .wma n | .stddev n | .bollinger n _ => max n 1
  | .rsi n | .roc n => Size.add n 1
  | .macd fast slow signal => Size.add (max fast slow) (max signal 1 - 1)

def bandWidth {α : Type} [Arithmetic α] (hundredths : Nat) : α :=
  Arithmetic.ofNat hundredths / Arithmetic.hundred

def title : Indicator → String
  | .sma n => s!"SMA({n})"
  | .ema n => s!"EMA({n})"
  | .wma n => s!"WMA({n})"
  | .rsi n => s!"RSI({n})"
  | .roc n => s!"ROC({n})"
  | .stddev n => s!"STDDEV({n})"
  | .macd fast slow signal => s!"MACD({fast},{slow},{signal})"
  | .bollinger n hundredths =>
    "BOLLINGER(" ++ n.repr ++ "," ++ Decimal.Form.running.render (bandWidth hundredths) ++ ")"

end Indicator
end Screener
