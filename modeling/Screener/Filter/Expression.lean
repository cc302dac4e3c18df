import Screener.Indicator.Memo
import Screener.Dictionary

/-! Filters: a flat conjunction or disjunction of comparisons between columns, indicators and numbers. -/
namespace Screener.Filter

inductive Logic where
  | all
  | any
  deriving Repr, DecidableEq

namespace Logic

def name : Logic → String
  | .all => "AND"
  | .any => "OR"

def ofName? (name : String) : Option Logic := [all, any].find? (·.name == name)

theorem ofName?_name (logic : Logic) : ofName? logic.name = some logic := by cases logic <;> decide

end Logic

inductive Comparison where
  | greater
  | less
  | atLeast
  | atMost
  | equal
  | unequal
  deriving Repr, DecidableEq

namespace Comparison

def every : List Comparison := [.greater, .less, .atLeast, .atMost, .equal, .unequal]

def symbol : Comparison → String
  | .greater => ">"
  | .less => "<"
  | .atLeast => ">="
  | .atMost => "<="
  | .equal => "=="
  | .unequal => "!="

def ofSymbol? (symbol : String) : Option Comparison := every.find? (·.symbol == symbol)

theorem ofSymbol?_symbol (c : Comparison) : ofSymbol? c.symbol = some c := by cases c <;> decide

end Comparison

/-- Where an operand is read: in the bars of which timeframe, and how many bars back. -/
structure Place where
  timeframe : Timeframe
  offset : Nat
  deriving Repr, DecidableEq

def Place.here : Place := ⟨.standard, 0⟩

inductive Operand where
  | column (name : String) (place : Place)
  | indicator (indicator : Indicator) (field : Indicator.Field) (column : String) (place : Place)
  | constant (value : Float)
  deriving Repr, BEq

namespace Operand

/-- How many bars of its timeframe the operand needs, the current one among them. -/
def lookback : Operand → Nat
  | .column _ place => Size.add place.offset 1
  | .indicator which _ _ place => Size.add place.offset which.minHistory
  | .constant _ => 0

def source? : Operand → Option (Timeframe × String)
  | .column name place => some (place.timeframe, name)
  | .indicator _ _ name place => some (place.timeframe, name)
  | .constant _ => none

def key? : Operand → Option Indicator.Key
  | .indicator which _ name place => some ⟨which, name, place.timeframe⟩
  | _ => none

end Operand

structure Condition where
  left : Operand
  comparison : Comparison
  right : Operand
  deriving Repr, BEq

namespace Condition

def operands (c : Condition) : List Operand := [c.left, c.right]

def lookback (c : Condition) : Nat := max c.left.lookback c.right.lookback

end Condition

def mostConditions : Nat := 50

structure Expression where
  logic : Logic
  conditions : List Condition
  count_range : 1 ≤ conditions.length ∧ conditions.length ≤ mostConditions

namespace Expression

def ofConditions? (logic : Logic) (conditions : List Condition) : Option Expression :=
  if h : 1 ≤ conditions.length ∧ conditions.length ≤ mostConditions then some ⟨logic, conditions, h⟩
  else none

def same (a b : Expression) : Bool := a.logic == b.logic && a.conditions == b.conditions

def operands (e : Expression) : List Operand := e.conditions.flatMap Condition.operands

/-- How many base bars a position needs before it is evaluated, the current one among them. -/
def window (e : Expression) : Nat := (e.conditions.map Condition.lookback).foldl max 1

def sources (e : Expression) : List (Timeframe × String) := e.operands.filterMap Operand.source?

def timeframes (e : Expression) : List Timeframe :=
  Timeframe.all.filter fun timeframe => e.sources.any (·.1 == timeframe)

def columnsIn (e : Expression) (timeframe : Timeframe) : List String :=
  (Dictionary.ofList ((e.sources.filter (·.1 == timeframe)).map fun source => (source.2, ()))).names

/-- All columns that are read, ordered by timeframe and then by name. -/
def columns (e : Expression) : List (Timeframe × String) :=
  Timeframe.all.flatMap fun timeframe => (e.columnsIn timeframe).map (timeframe, ·)

def keys (e : Expression) : List Indicator.Key := (e.operands.filterMap Operand.key?).eraseDups

end Expression
end Screener.Filter
