import Screener.Scan.Run

/-! A scan as its threads go through it. The scans of the symbols share nothing but the request to stop, which someone
else may make at any time. -/
namespace Screener.Scan.Interleaving
open Screener.Filter (Expression)
open Evaluation (Problem)

/-- The scan of one symbol: it looks for a request to stop before anything else, and at no other time. -/
inductive Worker where
  | waiting (history : History)
  | scanning (history : History) (stop : Bool)
  | finished (outcome : Outcome)

inductive Stage where
  | scanning (workers : List Worker)
  | merging (outcomes : List Outcome)
  | returned (result : Except Problem Report)

/-- `stop` is the request to stop, which nothing takes back. -/
structure State where
  stop : Bool
  stage : Stage

def State.start (asked : Bool) (histories : List History) : State := ⟨asked, .scanning (histories.map .waiting)⟩

inductive Event where
  | cancel
  | look (symbol : Nat)
  | finish (symbol : Nat)
  | check
  | merge
  deriving Repr, DecidableEq

def conclude (order : Order) (outcomes : List Outcome) : Except Problem Report :=
  if outcomes.any Outcome.isCancelled then .error .cancelled else .ok (collect order outcomes)

section
variable (e : Expression) (options : Options)

/-- What can happen. Each symbol is scanned at its own pace; the last look at the request comes after all of them. -/
inductive Step : State → Event → State → Prop
  | cancel {stop stage} : Step ⟨stop, stage⟩ .cancel ⟨true, stage⟩
  | look {stop workers symbol history} (waits : workers[symbol]? = some (.waiting history)) :
      Step ⟨stop, .scanning workers⟩ (.look symbol) ⟨stop, .scanning (workers.set symbol (.scanning history stop))⟩
  | finish {stop workers symbol history seen} (looked : workers[symbol]? = some (.scanning history seen)) :
      Step ⟨stop, .scanning workers⟩ (.finish symbol)
        ⟨stop, .scanning (workers.set symbol (.finished (scanSymbol e options seen history)))⟩
  | stopped {workers} {outcomes : List Outcome} (all : workers = outcomes.map .finished) :
      Step ⟨true, .scanning workers⟩ .check ⟨true, .returned (.error .cancelled)⟩
  | passed {workers} {outcomes : List Outcome} (all : workers = outcomes.map .finished) :
      Step ⟨false, .scanning workers⟩ .check ⟨false, .merging outcomes⟩
  | merge {stop outcomes} : Step ⟨stop, .merging outcomes⟩ .merge ⟨stop, .returned (conclude options.order outcomes)⟩

inductive Run : State → List Event → State → Prop
  | nil (state) : Run state [] state
  | cons {state event middle events last} (step : Step e options state event middle)
      (rest : Run middle events last) : Run state (event :: events) last

end

/-- Whether the request has been made when `event` happens for the first time. -/
def askedBefore (event : Event) (asked : Bool) (events : List Event) : Bool :=
  asked || (events.takeWhile (· != event)).contains .cancel

end Interleaving

def Watch.along (asked : Bool) (events : List Interleaving.Event) : Watch :=
  ⟨fun symbol => Interleaving.askedBefore (.look symbol) asked events, Interleaving.askedBefore .check asked events⟩

end Screener.Scan
