import Screener.Main
import Screener.Proofs.Evaluation.Reading
import Screener.Proofs.Indicator.Causal
import Screener.Proofs.Resample
import Screener.Proofs.Evaluation.Prepare
import Screener.Proofs.Evaluation.Seen
import Screener.Proofs.Evaluation.Calls
import Screener.Proofs.Evaluation.Future
import Screener.Proofs.Scan.Accounting
import Screener.Proofs.Json.Pointer
import Screener.Proofs.Decimal.Exact
import Screener.Proofs.Filter.Checked
import Screener.Proofs.Decimal.Rounding
import Screener.Proofs.Decimal.Whole
import Screener.Proofs.Filter.Width
import Screener.Proofs.Filter.Grammar
import Screener.Proofs.Json.Normal
import Screener.Proofs.Text.Trim
import Screener.Proofs.Filter.RoundTrip
import Screener.Proofs.Filter.Location
import Screener.Proofs.Filter.Violations
import Screener.Proofs.Filter.Independence
import Screener.Proofs.Scan.Outcomes
import Screener.Proofs.Scan.Sorting
import Screener.Proofs.Scan.Selection
import Screener.Proofs.Pipeline
import Screener.Proofs.Evaluation.Window
import Screener.Proofs.Indicator.Points
import Screener.Proofs.Indicator.Validity
import Screener.Proofs.Decimal.NonFinite
import Screener.Proofs.Indicator.NonFinite
import Screener.Proofs.Scan.Cancellation
import Screener.Proofs.Calendar.Week
import Screener.Proofs.Dictionary
import Screener.Proofs.Resample.Stretches
import Screener.Proofs.Decimal.Order
import Screener.Proofs.Decimal.Sum
import Screener.Proofs.Resample.Composition
import Screener.Proofs.Indicator.Locality
import Screener.Proofs.Indicator.Composite
import Screener.Proofs.Evaluation.Acceptance
import Screener.Proofs.Evaluation.Work
import Screener.Proofs.Except
import Screener.Proofs.Text.Case
import Screener.Proofs.Calendar.Text
import Screener.Proofs.Json.Text
import Screener.Proofs.Store.Written
import Screener.Proofs.Store.Bars
import Screener.Proofs.Source.Columns
import Screener.Proofs.Calendar.Formats
import Screener.Proofs.Scan.Range
import Screener.Proofs.Text.Upper
import Screener.Proofs.Universe
import Screener.Proofs.Command.Steps
import Screener.Proofs.Repetition
import Screener.Proofs.Command.Plan
import Screener.Proofs.Command.Targets
import Screener.Proofs.Calendar.Order
import Screener.Proofs.Store.Span
import Screener.Proofs.Text.Bytes
import Screener.Proofs.Json.Integer
import Screener.Proofs.SavedFilter
import Screener.Proofs.Store.Filters
import Screener.Proofs.Files
import Screener.Proofs.Store.Opening
import Screener.Proofs.Command.Keeping
import Screener.Proofs.Command.Shelf
import Screener.Proofs.Command.Names
import Screener.Proofs.Source.Listing
import Screener.Proofs.Scan.Rows
import Screener.Proofs.Source.Enumeration
import Screener.Proofs.Source.Arrangement
import Screener.Proofs.Machine.Evaluation
import Screener.Proofs.Machine.Scan
import Screener.Proofs.Indicator.Weights
import Screener.Proofs.Indicator.Averages
import Screener.Proofs.Indicator.Strength
import Screener.Proofs.Settings.Values
import Screener.Proofs.Settings.Rules
import Screener.Proofs.Settings.Scan
import Screener.Proofs.Command.Opening
