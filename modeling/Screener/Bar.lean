import Screener.Dictionary
import Screener.Calendar.Timestamp

/-! A price bar: the five standard columns and any further numeric columns of its source. -/
namespace Screener

structure Bar where
  symbol : String
  date : Calendar.Timestamp
  opening : Float
  high : Float
  low : Float
  close : Float
  volume : Float
  extra : Dictionary Float

namespace Bar

def standardColumns : List String := ["open", "high", "low", "close", "volume"]

def reservedColumns : List String := ["date", "symbol", "index", "explanation"]

def isStandard (name : String) : Bool := standardColumns.contains name

def isReserved (name : String) : Bool := reservedColumns.contains name

def isTaken (name : String) : Bool := isStandard name || isReserved name

def column? (bar : Bar) (name : String) : Option Float :=
  if name = "open" then some bar.opening
  else if name = "high" then some bar.high
  else if name = "low" then some bar.low
  else if name = "close" then some bar.close
  else if name = "volume" then some bar.volume
  else bar.extra.get? name

def hasColumn (bar : Bar) (name : String) : Bool := isStandard name || bar.extra.contains name

def columnValues (bars : List Bar) (name : String) : List Float :=
  bars.map fun bar => (bar.column? name).getD (0.0 / 0.0)

end Bar
end Screener
