import Screener.Filter.Checked
import Screener.Filter.Naming
import Screener.Json.Reader

/-! Reading filter documents. Everything that is wrong with a document is found, each fault with the path
to it; a filter comes out only if there is none. -/
namespace Screener.Filter
open Json (Value Fields)

namespace Document

def object : Value → Checked Fields
  | .object fields => .ok fields
  | other => .fail (.wrongKind "an object" other.kind)

def array : Value → Checked (List Value)
  | .array items => .ok items
  | other => .fail (.wrongKind "an array" other.kind)

def text : Value → Checked String
  | .text s => .ok s
  | other => .fail (.wrongKind "a string" other.kind)

def foreign (allowed : List String) (fields : Fields) : List Violation :=
  (fields.filter fun field => !allowed.contains field.1).map fun field => ⟨[field.1], .unexpectedKey⟩

def required {α : Type} (fields : Fields) (key : String) (check : Value → Checked α) : Checked α :=
  match fields.lookup key with
  | some value => (check value).under key
  | none => .failAt key .missing

def optional {α : Type} (fields : Fields) (key : String) (standard : α) (check : Value → Checked α) :
    Checked α :=
  match fields.lookup key with
  | some value => (check value).under key
  | none => .ok standard

def word {α : Type} (expected : String) (ofName? : String → Option α) (value : Value) : Checked α :=
  (text value).andThen fun s => .ofOption (.notAmong expected s) (ofName? s)

def logic : Value → Checked Logic := word "\"AND\" or \"OR\"" Logic.ofName?

def comparison : Value → Checked Comparison := word "one of >, <, >=, <=, ==, !=" Comparison.ofSymbol?

def timeframe : Value → Checked Timeframe := word "one of daily, weekly, intraday" Timeframe.ofName?

def columnName (value : Value) : Checked String :=
  (text value).andThen fun s =>
    let name := Text.trim s
    if name.isEmpty then .fail .emptyName else .ok (Text.lowerAscii name)

def offset : Value → Checked Nat
  | .number (.integer n) =>
    if n < 0 then .fail .offsetAhead
    else if n.toNat ≤ mostOffset then .ok n.toNat
    else .fail (.offsetTooLarge n.toNat)
  | other => .fail (.wrongKind "a non-negative integer" other.kind)

def place (fields : Fields) : Checked Place :=
  .both Place.mk (optional fields "timeframe" .standard timeframe) (optional fields "offset" 0 offset)

def widestPeriod : Nat := Nat.pow 2 32 - 1

def natural? : Value → Option Nat
  | .number (.integer n) => if n < 0 then none else some n.toNat
  | .number (.double x) => (Decimal.whole? x).filter (· ≤ widestPeriod)
  | _ => none

def period (value : Value) : Checked Nat :=
  match natural? value with
  | none | some 0 => .fail (.parameter "a positive integer" value)
  | some n => if n ≤ mostPeriod then .ok n else .fail (.parameter s!"at most {mostPeriod}" value)

def mostHundredths : Nat := Nat.pow 2 32 - 1

def hundredthsTolerance : Float := 1e-6

/-- The width of bands as a multiple of the deviation, in hundredths. -/
def hundredths (value : Value) : Checked Nat :=
  let inRange : Option Float :=
    match value with
    | .number n =>
      if 0.0 < n.toFloat && n.toFloat ≤ Float.ofNat mostHundredths / 100.0 then some n.toFloat else none
    | _ => none
  match inRange with
  | none => .fail (.parameter "a positive number of at least 0.01" value)
  | some x =>
    let scaled := x * 100.0
    let nearest := Decimal.nearestWhole scaled
    if nearest < 1 || hundredthsTolerance < (scaled - Float.ofNat nearest).abs then
      .fail (.parameter "a multiple of 0.01 of at least 0.01" value)
    else .ok (min nearest mostHundredths)

def standardIndicator : Family → Indicator × Indicator.Field
  | .single make n => (make n, .value)
  | .macd field => (.macd 12 26 9, field)
  | .bollinger field => (.bollinger 20 200, field)

def macd (fast slow signal : Value) : Checked Indicator :=
  (Checked.both Prod.mk ((period fast).under "0")
    (.both Prod.mk ((period slow).under "1") ((period signal).under "2"))).andThen
    fun (fast, slow, signal) =>
      if fast < slow then .ok (.macd fast slow signal) else .fail (.fastNotBelowSlow fast slow)

def parameters (name : String) (family : Family) (values : List Value) :
    Checked (Indicator × Indicator.Field) :=
  match family, values with
  | family, [] => .ok (standardIndicator family)
  | .single make _, [n] => ((period n).under "0").map (make ·, .value)
  | .macd field, [fast, slow, signal] => (macd fast slow signal).map (·, field)
  | .bollinger field, [n, width] =>
    .both (fun n width => (.bollinger n width, field)) ((period n).under "0") ((hundredths width).under "1")
  | family, values => .fail (.parameterCount name family.arity values.length)

def indicator (fields : Fields) : Checked (Indicator × Indicator.Field) :=
  (required fields "name" text).andThen fun name =>
    match Family.ofName? name with
    | none => .failAt "name" (.unknownIndicator name)
    | some family =>
      match fields.lookup "params" with
      | none => .ok (standardIndicator family)
      | some value => ((array value).andThen (parameters name family)).under "params"

def constant : Value → Checked Float
  | .number n => if n.toFloat.isFinite then .ok n.toFloat else .fail .notFinite
  | other => .fail (.wrongKind "a number" other.kind)

inductive Kind where
  | column
  | indicator
  | constant

def Kind.ofName? (name : String) : Option Kind :=
  if name = "column" then some .column
  else if name = "indicator" then some .indicator
  else if name = "constant" then some .constant
  else none

def Kind.keys : Kind → List String
  | .column => ["type", "name", "timeframe", "offset"]
  | .indicator => ["type", "name", "params", "column", "timeframe", "offset"]
  | .constant => ["type", "value"]

def operandOf (fields : Fields) : Kind → Checked Operand
  | .column => .both Operand.column (required fields "name" columnName) (place fields)
  | .indicator =>
    .both (fun (which, field) (name, place) => Operand.indicator which field name place)
      (indicator fields) (.both Prod.mk (required fields "column" columnName) (place fields))
  | .constant => (required fields "value" constant).map .constant

def operand (value : Value) : Checked Operand :=
  (object value).andThen fun fields =>
    (required fields "type" (word "one of column, indicator, constant" Kind.ofName?)).andThen fun kind =>
      (operandOf fields kind).noting (foreign kind.keys fields)

def condition (value : Value) : Checked Condition :=
  (object value).andThen fun fields =>
    (Checked.both (fun left (comparison, right) => Condition.mk left comparison right)
      (required fields "left" operand)
      (.both Prod.mk (required fields "operator" comparison) (required fields "right" operand))).noting
      (foreign ["left", "operator", "right"] fields)

def conditions (value : Value) : Checked (List Condition) :=
  (array value).andThen fun values =>
    let each := Checked.items condition 0 values
    if 1 ≤ values.length ∧ values.length ≤ mostConditions then each
    else ⟨none, ⟨[], .conditionCount values.length mostConditions⟩ :: each.found⟩

def expression (logic : Logic) (conditions : List Condition) : Checked Expression :=
  match Expression.ofConditions? logic conditions with
  | some e => .ok e
  | none => .failAt "conditions" (.conditionCount conditions.length mostConditions)

def filter (value : Value) : Checked Expression :=
  (object value).andThen fun fields =>
    ((Checked.both Prod.mk (required fields "logic" logic) (required fields "conditions" conditions)).andThen
      fun (logic, conditions) => expression logic conditions).noting
      (foreign ["logic", "conditions"] fields)

end Document

def Expression.ofJson (value : Value) : Except (List Violation) Expression :=
  (Document.filter value).toExcept

def Expression.ofText (text : String) : Except (List Violation) Expression :=
  match Json.read text with
  | some value => Expression.ofJson value.normal
  | none => .error [⟨[], .malformed⟩]

end Screener.Filter
