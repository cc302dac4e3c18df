import Screener.Filter.Expression
import Screener.Json.Writer

/-! How filter documents name indicators, and their parameters there. -/
namespace Screener.Filter

/-- The indicators that a name with a given number of parameters stands for. -/
inductive Family where
  | single (indicator : Nat → Indicator) (period : Nat)
  | macd (field : Indicator.Field)
  | bollinger (field : Indicator.Field)

namespace Family

def arity : Family → Nat
  | .single .. => 1
  | .macd _ => 3
  | .bollinger _ => 2

/-- Every name with what it stands for; single periods come with the value of a missing one. -/
def every : List (String × Family) := [
  ("sma", .single .sma 20),
  ("ema", .single .ema 20),
  ("wma", .single .wma 20),
  ("rsi", .single .rsi 14),
  ("roc", .single .roc 12),
  ("stddev", .single .stddev 20),
  ("macd", .macd .macdLine),
  ("macd_signal", .macd .macdSignal),
  ("macd_hist", .macd .macdHistogram),
  ("bb_upper", .bollinger .upperBand),
  ("bb_middle", .bollinger .middleBand),
  ("bb_lower", .bollinger .lowerBand)]

def ofName? (name : String) : Option Family := every.lookup name

end Family

def nameOf : Indicator → Indicator.Field → String
  | .sma _, _ => "sma"
  | .ema _, _ => "ema"
  | .wma _, _ => "wma"
  | .rsi _, _ => "rsi"
  | .roc _, _ => "roc"
  | .stddev _, _ => "stddev"
  | .macd .., .macdSignal => "macd_signal"
  | .macd .., .macdHistogram => "macd_hist"
  | .macd .., _ => "macd"
  | .bollinger .., .upperBand => "bb_upper"
  | .bollinger .., .lowerBand => "bb_lower"
  | .bollinger .., _ => "bb_middle"

def params : Indicator → List Json.Number
  | .sma n | .ema n | .wma n | .rsi n | .roc n | .stddev n => [.integer n]
  | .macd fast slow signal => [.integer fast, .integer slow, .integer signal]
  | .bollinger n hundredths => [.integer n, .double (Indicator.bandWidth hundredths)]

end Screener.Filter
