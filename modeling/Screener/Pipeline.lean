import Screener.Request
import Screener.Settings.Scan

/-! From a plan to a report: the symbols are settled, their bars loaded, and the filter scanned for. -/
namespace Screener

structure Plan where
  filter : Filter.Expression
  options : Scan.Options
  symbols : Option (List String)

/-- The symbols of the plan, else those of the settings, else all that the source has. -/
def Plan.targets (plan : Plan) (settings : Settings.ScanSettings) (source : Source) :
    Except Failure (List String) :=
  match plan.symbols.orElse fun _ => settings.symbols with
  | some symbols => .ok symbols
  | none => source.symbols

/-- The report of a plan; symbols that could not be loaded are among its diagnostics. -/
def Plan.report (plan : Plan) (settings : Settings.ScanSettings) (source : Source) :
    Except Failure Scan.Report := do
  let symbols ← plan.targets settings source
  let loaded := Universe.load source settings.base symbols
  let report ← (Scan.scan .quiet plan.filter plan.options loaded.histories).mapError .scan
  return report.adding loaded.diagnostics

end Screener
