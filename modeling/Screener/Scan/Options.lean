import Screener.Calendar.Timestamp
import Screener.Text.Word

/-! What a scan is asked for beside its filter: the order of the results, a range of dates, and whether
every match is explained. -/
namespace Screener.Scan
open Calendar (Timestamp)

inductive Order where
  | ascending
  | descending
  deriving Repr, DecidableEq

namespace Order

def name : Order → String
  | .ascending => "asc"
  | .descending => "desc"

def ofName? (name : String) : Option Order := [ascending, descending].find? (·.name == name)

def ofSetting : String → Except Text.UnknownWord Order := Text.choose "order" "asc or desc" ofName?

end Order

/-- Bounds on dates, both inclusive; a missing bound leaves its side open. -/
structure DateRange where
  first : Option Timestamp
  last : Option Timestamp
  deriving DecidableEq

def DateRange.contains (range : DateRange) (date : Timestamp) : Bool :=
  range.first.all (·.notAfter date) && range.last.all (date.notAfter ·)

structure Options where
  order : Order := .descending
  range : Option DateRange := none
  explain : Bool := false

def Options.admits (options : Options) (date : Timestamp) : Bool := options.range.all (·.contains date)

end Screener.Scan
