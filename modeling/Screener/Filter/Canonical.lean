import Screener.Filter.Naming

/-! Filters as documents with nothing left out, and the text of those documents. -/
namespace Screener.Filter
open Json (Value)

def placeFields (place : Place) : Json.Fields :=
  [("timeframe", .text place.timeframe.name), ("offset", .ofNat place.offset)]

def Operand.fields : Operand → Json.Fields
  | .column name place => [("type", .text "column"), ("name", .text name)] ++ placeFields place
  | .indicator which field name place =>
    [("type", .text "indicator"), ("name", .text (nameOf which field)),
      ("params", .array ((params which).map .number)), ("column", .text name)] ++ placeFields place
  | .constant value => [("type", .text "constant"), ("value", .ofFloat value)]

def Condition.fields (c : Condition) : Json.Fields :=
  [("left", .object c.left.fields), ("operator", .text c.comparison.symbol),
    ("right", .object c.right.fields)]

def Expression.fields (e : Expression) : Json.Fields :=
  [("logic", .text e.logic.name), ("conditions", .array (e.conditions.map fun c => .object c.fields))]

def Expression.toJson (e : Expression) : Value := (Value.object e.fields).normal

def Expression.text (e : Expression) : String := e.toJson.compact

end Screener.Filter
