import Screener.Scan.Report

/-! Scanning symbols. Each is scanned by itself, with a memo of its own; a problem with one symbol goes
into the report, and only a request to stop ends the scan without one. -/
namespace Screener.Scan
open Screener.Filter (Expression)
open Evaluation (Frame Problem)
open Indicator (Memo)

/-- What a scan sees of a request to stop: it looks once for each symbol and once at the end. -/
structure Watch where
  atSymbol : Nat → Bool
  atEnd : Bool

def Watch.quiet : Watch := ⟨fun _ => false, false⟩

def Watch.stopped : Watch := ⟨fun _ => true, true⟩

inductive Outcome where
  | matched (found : List Match)
  | skipped (symbol : Skipped)
  | failed (diagnostic : Diagnostic)
  | cancelled

def matchAt (frame : Frame) (e : Expression) (explain : Bool) (bar : Bar) (position : Nat) :
    StateM Memo (Option Match) := do
  let symbol := frame.history.symbol
  if explain then
    let verdict ← frame.explain e position
    return if verdict.matched then some (.ofBar symbol position bar (some verdict)) else none
  else
    return if ← frame.matched e position then some (.ofBar symbol position bar none) else none

def matchRows (frame : Frame) (e : Expression) (options : Options) :
    List (Bar × Nat) → StateM Memo (List Match)
  | [] => pure []
  | (bar, position) :: rest => do
    if options.admits bar.date then
      let found ← matchAt frame e options.explain bar position
      let others ← matchRows frame e options rest
      return found.toList ++ others
    else matchRows frame e options rest

/-- Scans one symbol: positions with fewer rows than the filter's window before them are passed over. -/
def scanSymbol (e : Expression) (options : Options) (stop : Bool) (history : History) : Outcome :=
  if stop then .cancelled
  else if history.bars.isEmpty then .skipped ⟨history.symbol, 0, e.window⟩
  else
    match Frame.prepare history e with
    | .error problem => .failed ⟨history.symbol, problem⟩
    | .ok frame =>
      if history.bars.length < e.window then .skipped ⟨history.symbol, history.bars.length, e.window⟩
      else .matched ((matchRows frame e options (history.bars.zipIdx.drop (e.window - 1)) .empty).1)

def Outcome.matches? : Outcome → List Match
  | .matched found => found
  | _ => []

def Outcome.diagnostic? : Outcome → Option Diagnostic
  | .failed diagnostic => some diagnostic
  | _ => none

def Outcome.skipped? : Outcome → Option Skipped
  | .skipped symbol => some symbol
  | _ => none

def Outcome.isCancelled : Outcome → Bool
  | .cancelled => true
  | _ => false

def collect (order : Order) (outcomes : List Outcome) : Report :=
  Report.sorted order
    ⟨outcomes.flatMap Outcome.matches?, outcomes.filterMap Outcome.diagnostic?,
      outcomes.filterMap Outcome.skipped?⟩

/-- Scans all symbols. A request to stop seen anywhere leaves no report. -/
def scan (watch : Watch) (e : Expression) (options : Options) (histories : List History) :
    Except Problem Report :=
  let outcomes := histories.zipIdx.map fun (history, i) => scanSymbol e options (watch.atSymbol i) history
  if watch.atEnd || outcomes.any Outcome.isCancelled then .error .cancelled
  else .ok (collect options.order outcomes)

theorem isCancelled_scanSymbol (e : Expression) (options : Options) (history : History) :
    (scanSymbol e options false history).isCancelled = false := by
  simp only [scanSymbol]
  repeat' split
  all_goals first | rfl | contradiction

end Screener.Scan
