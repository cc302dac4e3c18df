import Screener.Filter.Naming

/-! Filters in words. The timeframe is left out where it is the standard one, and so is a zero offset. -/
namespace Screener.Filter

def Place.wording (place : Place) : String :=
  (if place.timeframe = .standard then "" else " [" ++ place.timeframe.name ++ "]") ++
    (if place.offset = 0 then "" else " [-" ++ place.offset.repr ++ "]")

def Operand.wording : Operand → String
  | .column name place => name ++ place.wording
  | .indicator which field name place =>
    let parameters := (params which).map fun n => String.ofList n.chars
    nameOf which field ++ "(" ++ ",".intercalate parameters ++ ") of " ++ name ++ place.wording
  | .constant value => Decimal.Form.running.render value

def Condition.wording (c : Condition) : String :=
  c.left.wording ++ " " ++ c.comparison.symbol ++ " " ++ c.right.wording

def Expression.wording (e : Expression) : String :=
  (" " ++ e.logic.name ++ " ").intercalate (e.conditions.map Condition.wording)

end Screener.Filter
