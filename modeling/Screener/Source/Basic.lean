import Screener.Failure

/-! Where bars come from. A source is asked for the bars of a symbol, for the symbols it has, and for the
first and last date and the number of a symbol's bars. -/
namespace Screener

structure Span where
  first : Calendar.Timestamp
  last : Calendar.Timestamp
  count : Nat
  deriving DecidableEq

def Span.ofBars? (bars : List Bar) : Option Span :=
  match bars.head?, bars.getLast? with
  | some first, some last => some ⟨first.date, last.date, bars.length⟩
  | _, _ => none

structure Source where
  bars : String → Except Failure (List Bar)
  symbols : Except Failure (List String)
  span? : String → Except Failure (Option Span)

def Bar.byDate (bars : List Bar) : List Bar := bars.mergeSort fun a b => a.date.notAfter b.date

end Screener
