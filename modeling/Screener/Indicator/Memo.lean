import Screener.Indicator.Window
import Screener.Indicator.Recursive
import Screener.Timeframe

/-! All indicators in one function, and the memo in which the series of a symbol are kept once they are
computed. -/
namespace Screener.Indicator

def series {α : Type} [RootArithmetic α] : Indicator → List α → Series α
  | .sma n => smaSeries n
  | .ema n => emaSeries n
  | .wma n => wmaSeries n
  | .rsi n => rsiSeries n
  | .roc n => rocSeries n
  | .stddev n => stddevSeries n
  | .macd fast slow signal => macdSeries fast slow signal
  | .bollinger n hundredths => bollingerSeries n hundredths

structure Key where
  indicator : Indicator
  column : String
  timeframe : Timeframe
  deriving Repr, DecidableEq

/-- The series computed so far, in the order of their first use, and how many computations that took. -/
structure Memo where
  entries : List (Key × Series Float)
  computations : Nat

namespace Memo

def empty : Memo := ⟨[], 0⟩

def find? (memo : Memo) (key : Key) : Option (Series Float) := memo.entries.lookup key

def size (memo : Memo) : Nat := memo.entries.length

/-- The series of a key. It is computed over the values of the column when it is first asked for. -/
def ask (key : Key) (values : Unit → List Float) : StateM Memo (Series Float) := fun memo =>
  match memo.find? key with
  | some found => (found, memo)
  | none =>
    let computed := key.indicator.series (values ())
    (computed, ⟨memo.entries ++ [(key, computed)], memo.computations + 1⟩)

theorem find?_append (memo : Memo) (key other : Key) (computed : Series Float) (n : Nat)
    (absent : memo.find? key = none) :
    find? ⟨memo.entries ++ [(key, computed)], n⟩ other =
      if other = key then some computed else memo.find? other := by
  simp only [find?] at absent ⊢
  rw [List.lookup_append]
  by_cases same : other = key
  · simp [same, absent]
  · simp [same, List.lookup_cons, beq_eq_false_iff_ne.2 same]

theorem find?_ask (key other : Key) (values : Unit → List Float) (memo : Memo) :
    (ask key values memo).2.find? other =
      if other = key then some (ask key values memo).1 else memo.find? other := by
  unfold ask
  split
  · by_cases same : other = key <;> simp_all
  · exact find?_append memo key other _ _ (by assumption)

end Memo
end Screener.Indicator
