import Screener.Evaluation.Verdict
import Screener.Scan.Options
import Screener.Calendar.Text

/-! The report of a scan: matching rows, symbols that failed, and symbols with too few rows. Its order
does not depend on the order in which the symbols were scanned. -/
namespace Screener.Scan
open Calendar (Timestamp)
open Json (Value)

structure Match where
  symbol : String
  date : Timestamp
  index : Nat
  opening : Float
  high : Float
  low : Float
  close : Float
  volume : Float
  extra : Dictionary Float
  verdict : Option Evaluation.Verdict

/-- The match of a bar. Further columns named like a fixed key of the match are left out. -/
def Match.ofBar (symbol : String) (index : Nat) (bar : Bar) (verdict : Option Evaluation.Verdict) : Match where
  symbol
  date := bar.date
  index
  opening := bar.opening
  high := bar.high
  low := bar.low
  close := bar.close
  volume := bar.volume
  extra := bar.extra.restrict fun name => !Bar.isTaken name
  verdict

structure Diagnostic where
  symbol : String
  problem : Evaluation.Problem
  deriving Repr, DecidableEq

structure Skipped where
  symbol : String
  rows : Nat
  required : Nat
  deriving Repr, DecidableEq

structure Report where
  results : List Match
  diagnostics : List Diagnostic
  skipped : List Skipped

/-- By date in the order asked for, then by symbol, then by position. -/
def Match.notAfter (order : Order) (a b : Match) : Bool :=
  if a.date ≠ b.date then
    match order with
    | .ascending => a.date.notAfter b.date
    | .descending => b.date.notAfter a.date
  else if a.symbol ≠ b.symbol then a.symbol < b.symbol
  else a.index ≤ b.index

def Diagnostic.notAfter (a b : Diagnostic) : Bool := a.symbol ≤ b.symbol

def Skipped.notAfter (a b : Skipped) : Bool := a.symbol ≤ b.symbol

def Report.sorted (order : Order) (report : Report) : Report where
  results := report.results.mergeSort (Match.notAfter order)
  diagnostics := report.diagnostics.mergeSort Diagnostic.notAfter
  skipped := report.skipped.mergeSort Skipped.notAfter

def Report.adding (report : Report) (diagnostics : List Diagnostic) : Report :=
  { report with diagnostics := (report.diagnostics ++ diagnostics).mergeSort Diagnostic.notAfter }

def outcomeJson (outcome : Evaluation.Outcome) : Value :=
  .object [("condition", .text outcome.condition), ("left", .ofOption .ofFloat outcome.left),
    ("right", .ofOption .ofFloat outcome.right), ("result", .boolean outcome.result)]

def verdictJson (verdict : Evaluation.Verdict) : Value :=
  .object [("matched", .boolean verdict.matched), ("conditions", .array (verdict.outcomes.map outcomeJson))]

def Match.fields (m : Match) : Json.Fields :=
  [("symbol", .text m.symbol), ("date", .text m.date.text), ("index", .ofNat m.index),
    ("open", .ofFloat m.opening), ("high", .ofFloat m.high), ("low", .ofFloat m.low),
    ("close", .ofFloat m.close), ("volume", .ofFloat m.volume)] ++
  m.extra.entries.map (fun (name, value) => (name, .ofFloat value)) ++
  (m.verdict.map fun verdict => ("explanation", verdictJson verdict)).toList

def Diagnostic.toJson (d : Diagnostic) : Value :=
  .object [("symbol", .text d.symbol), ("error", .text d.problem.message)]

def Skipped.toJson (s : Skipped) : Value :=
  .object [("symbol", .text s.symbol), ("rows", .ofNat s.rows), ("required", .ofNat s.required)]

def Report.toJson (report : Report) : Value :=
  .object [("results", .array (report.results.map fun m => .object m.fields)),
    ("diagnostics", .array (report.diagnostics.map Diagnostic.toJson)),
    ("skipped", .array (report.skipped.map Skipped.toJson))]

end Screener.Scan
