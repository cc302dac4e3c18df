import Screener.Evaluation.Frame
import Screener.Filter.Wording

/-! Evaluating a filter at a position. An operand may have no value there; a condition with such an
operand does not hold. Series of indicators are computed when they are first read and kept in a memo. -/
namespace Screener.Evaluation
open Screener.Filter (Operand Condition Expression)
open Indicator (Memo)

namespace Frame

def value? (frame : Frame) (operand : Operand) (position : Nat) : StateM Memo (Option Float) :=
  match operand with
  | .constant x => pure (some x)
  | .column name place =>
    pure <| match frame.position? place position with
      | some spot =>
        match (frame.bars place.timeframe)[spot]? with
        | some bar => (bar.column? name).filter Float.isFinite
        | none => none
      | none => none
  | .indicator which field name place =>
    match frame.position? place position with
    | none => pure none
    | some spot => do
      let series ← Memo.ask ⟨which, name, place.timeframe⟩ fun _ =>
        Bar.columnValues (frame.bars place.timeframe) name
      return series.reading? spot field

def meets (frame : Frame) (position : Nat) (condition : Condition) : StateM Memo Bool := do
  match ← frame.value? condition.left position with
  | none => return false
  | some left =>
    match ← frame.value? condition.right position with
    | none => return false
    | some right => return holds condition.comparison left right

/-- Whether the filter holds. No condition is read after the one that decides. -/
def matched (frame : Frame) (e : Expression) (position : Nat) : StateM Memo Bool :=
  match e.logic with
  | .all => e.conditions.allM (frame.meets position)
  | .any => e.conditions.anyM (frame.meets position)

end Frame

structure Outcome where
  condition : String
  left : Option Float
  right : Option Float
  result : Bool

structure Verdict where
  matched : Bool
  outcomes : List Outcome

def decideOn (condition : Condition) (left right : Option Float) : Outcome where
  condition := condition.wording
  left
  right
  result :=
    match left, right with
    | some a, some b => holds condition.comparison a b
    | _, _ => false

namespace Frame

def outcome (frame : Frame) (position : Nat) (condition : Condition) : StateM Memo Outcome := do
  let left ← frame.value? condition.left position
  let right ← frame.value? condition.right position
  return decideOn condition left right

/-- Reads every condition, whatever the others give. -/
def explain (frame : Frame) (e : Expression) (position : Nat) : StateM Memo Verdict := do
  let outcomes ← e.conditions.mapM (frame.outcome position)
  let matched :=
    match e.logic with
    | .all => outcomes.all (·.result)
    | .any => outcomes.any (·.result)
  return ⟨matched, outcomes⟩

end Frame
end Screener.Evaluation
