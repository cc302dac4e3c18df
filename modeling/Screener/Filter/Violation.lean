import Screener.Json.Pointer
import Screener.Json.Writer

/-! What can be wrong with a filter document or a scan request, and where. -/
namespace Screener.Filter

inductive Violation.Kind where
  | schema
  | arity
  deriving Repr, DecidableEq

def Violation.Kind.name : Violation.Kind → String
  | .schema => "schema"
  | .arity => "arity"

inductive SymbolListFault where
  | emptyToken
  | duplicate (symbol : String)
  deriving Repr, DecidableEq

def SymbolListFault.message : SymbolListFault → String
  | .emptyToken => "empty token in symbol list"
  | .duplicate symbol => "duplicate symbol: " ++ symbol

def mostOffset : Nat := 1000000

def mostPeriod : Nat := 1000000

inductive Reason where
  | malformed
  | wrongKind (expected found : String)
  | notAmong (expected found : String)
  | unexpectedKey
  | missing
  | conditionCount (found most : Nat)
  | emptyName
  | notFinite
  | offsetTooLarge (found : Nat)
  | offsetAhead
  | unknownIndicator (name : String)
  | parameterCount (name : String) (expected found : Nat)
  | fastNotBelowSlow (fast slow : Nat)
  | parameter (expected : String) (found : Json.Value)
  | badDate (text : String)
  | reversedRange
  | symbolList (fault : SymbolListFault)
  | unspecified

namespace Reason

def kind : Reason → Violation.Kind
  | .parameterCount .. | .fastNotBelowSlow .. | .parameter .. => .arity
  | _ => .schema

def message : Reason → String
  | .malformed => "invalid JSON"
  | .wrongKind expected found => s!"must be {expected}, found {found}"
  | .notAmong expected found => s!"must be {expected}, found \"{found}\""
  | .unexpectedKey => "unexpected key"
  | .missing => "is required"
  | .conditionCount found most => s!"must contain between 1 and {most} conditions, found {found}"
  | .emptyName => "must not be empty"
  | .notFinite => "must be a finite number"
  | .offsetTooLarge found => s!"must be at most {mostOffset}, found {found}"
  | .offsetAhead => "must be a non-negative integer; negative offsets would look ahead"
  | .unknownIndicator name => s!"unknown indicator \"{name}\""
  | .parameterCount name expected found =>
    let plural := if expected = 1 then "" else "s"
    s!"{name} takes {expected} parameter{plural}, found {found}"
  | .fastNotBelowSlow fast slow => s!"fast period ({fast}) must be less than slow period ({slow})"
  | .parameter expected found => "must be " ++ expected ++ ", found " ++ found.compact
  | .badDate text => s!"invalid date '{text}', expected YYYY-MM-DD"
  | .reversedRange => "start must not be after end"
  | .symbolList fault => fault.message
  | .unspecified => "invalid filter"

end Reason

structure Violation where
  path : Json.Pointer
  reason : Reason

namespace Violation

def kind (v : Violation) : Kind := v.reason.kind

def message (v : Violation) : String := v.path.text ++ ": " ++ v.reason.message

def under (step : String) (v : Violation) : Violation := ⟨step :: v.path, v.reason⟩

def report (vs : List Violation) : String :=
  let plural := if vs.length = 1 then "" else "s"
  s!"invalid filter ({vs.length} violation{plural})" ++
    String.join (vs.map fun v => "\n  " ++ v.message)

end Violation
end Screener.Filter
