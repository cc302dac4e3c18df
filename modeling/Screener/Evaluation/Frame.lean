import Screener.Evaluation.Compare
import Screener.History

/-! The bars that a filter reads of one symbol: its own, those attached to it, and coarser ones put
together from the base bars. -/
namespace Screener.Evaluation
open Screener.Filter (Expression)

inductive Problem where
  | unresolved (symbol column : String) (timeframe : Timeframe)
  | unavailable (symbol : String) (timeframe base : Timeframe)
  | unloaded (symbol reason : String)
  | cancelled
  deriving Repr, DecidableEq

def Problem.message : Problem → String
  | .unresolved symbol column timeframe =>
    symbol ++ ": column '" ++ column ++ "' not present in " ++ timeframe.name ++ " rows"
  | .unavailable symbol timeframe base =>
    symbol ++ ": " ++ timeframe.name ++ " rows unavailable (base timeframe is " ++ base.name ++ ")"
  | .unloaded symbol reason => symbol ++ ": failed to load rows: " ++ reason
  | .cancelled => "scan cancelled"

structure Frame where
  history : History
  derived : Timeframe.Each (Option (List Bar))

namespace Frame

def bars (frame : Frame) (timeframe : Timeframe) : List Bar :=
  match frame.derived.get timeframe with
  | some bars => bars
  | none => (frame.history.bars? timeframe).getD []

/-- The bars of the history, and those of the timeframes that the filter reads beyond them. -/
def gather (history : History) (e : Expression) : Frame where
  history
  derived := .ofFunction fun timeframe =>
    if e.timeframes.contains timeframe && (history.bars? timeframe).isNone then
      some (resample timeframe history.bars)
    else none

/-- The frame of a filter. Every timeframe that is read must be there or coarser than the base, and every
column must be in some bar of its timeframe. -/
def prepare (history : History) (e : Expression) : Except Problem Frame :=
  let beyond := e.timeframes.find? fun timeframe =>
    (history.bars? timeframe).isNone && !timeframe.derivableFrom history.base
  match beyond with
  | some timeframe => .error (.unavailable history.symbol timeframe history.base)
  | none =>
    let frame := gather history e
    let absent := e.columns.find? fun (timeframe, column) =>
      !(frame.bars timeframe).any (·.hasColumn column)
    match absent with
    | some (timeframe, column) => .error (.unresolved history.symbol column timeframe)
    | none => .ok frame

end Frame

def narrow (before : Nat → Bool) (size first : Nat) : Nat :=
  if size ≤ 1 then first
  else
    let half := size / 2
    narrow before (size - half) (if before (first + half) then first + half else first)
termination_by size
decreasing_by omega

/-- The number of positions below `size` that come before a bound, found by halving. -/
def countBefore (before : Nat → Bool) (size : Nat) : Nat :=
  if size = 0 then 0
  else
    let last := narrow before size 0
    if before last then last + 1 else last

theorem narrow_lt (before : Nat → Bool) (size first : Nat) (some_left : 0 < size) :
    narrow before size first < first + size := by
  induction size, first using narrow.induct before with
  | case1 size first h =>
    rw [narrow, if_pos h]
    omega
  | case2 size first h half ih =>
    rw [narrow, if_neg h]
    refine Nat.lt_of_lt_of_le (ih (by omega)) ?_
    simp only [half]
    split <;> omega

theorem countBefore_le (before : Nat → Bool) (size : Nat) : countBefore before size ≤ size := by
  unfold countBefore
  split
  · omega
  · have := narrow_lt before size 0 (by omega)
    simp only
    split <;> omega

def datedBy (bars : List Bar) (time : Calendar.Timestamp) (position : Nat) : Bool :=
  match bars[position]? with
  | some bar => bar.date.notAfter time
  | none => false

def lastDatedBy? (bars : List Bar) (time : Calendar.Timestamp) : Option Nat :=
  match countBefore (datedBy bars time) bars.length with
  | 0 => none
  | n + 1 => some n

/-- The bar of a timeframe that is current at a base position. -/
def Frame.aligned? (frame : Frame) (timeframe : Timeframe) (position : Nat) : Option Nat :=
  if timeframe = frame.history.base then
    if position < frame.history.bars.length then some position else none
  else
    match frame.history.bars[position]? with
    | some bar => lastDatedBy? (frame.bars timeframe) bar.date
    | none => none

def back? (position offset : Nat) : Option Nat :=
  if offset ≤ position then some (position - offset) else none

def Frame.position? (frame : Frame) (place : Filter.Place) (position : Nat) : Option Nat :=
  (frame.aligned? place.timeframe position).bind (back? · place.offset)

end Screener.Evaluation
