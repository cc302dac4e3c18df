import Screener.Filter.Document
import Screener.Scan.Options
import Screener.Calendar.Text
import Screener.Universe

/-! Scan requests: a document with a filter and, if wanted, a range of dates, an order and symbols. -/
namespace Screener
open Json (Value Fields)
open Screener.Filter (Violation Expression)
open Scan (DateRange Order Options)

structure Request where
  filter : Value
  dates : Option (String × String)
  order : Option Order
  symbols : Option (List String)

namespace Request

def optional {α : Type} (read? : Value → Option α) : Option Value → Option (Option α)
  | none | some .null => some none
  | some value => (read? value).map some

def text? : Value → Option String
  | .text s => some s
  | _ => none

def dates? : Value → Option (String × String)
  | .array [first, last] => return (← text? first, ← text? last)
  | _ => none

def order? : Value → Option Order
  | .text name => Order.ofName? name
  | .object [(name, .null)] => Order.ofName? name
  | _ => none

def symbols? : Value → Option (List String)
  | .array items => items.mapM text?
  | _ => none

def keys : List String := ["filter", "date_range", "order", "symbols"]

def ofParts? (filter dates order symbols : Option Value) : Option Request := do
  return ⟨(← filter).normal, ← optional dates? dates, ← optional order? order, ← optional symbols? symbols⟩

def distinctKeys : Fields → Bool
  | [] => true
  | field :: rest => rest.all (·.1 != field.1) && distinctKeys rest

def ofJson? : Value → Option Request
  | .object fields =>
    if fields.all (fun field => keys.contains field.1) && distinctKeys fields then
      ofParts? (fields.lookup "filter") (fields.lookup "date_range") (fields.lookup "order")
        (fields.lookup "symbols")
    else none
  | .array items =>
    if items.length ≤ keys.length then ofParts? items[0]? items[1]? items[2]? items[3]? else none
  | _ => none

def ofText (text : String) : Except Failure Request :=
  match (Json.read text).bind ofJson? with
  | some request => .ok request
  | none => .error (.document .malformed)

def expression (request : Request) : Except (List Violation) Expression :=
  (Expression.ofJson request.filter).mapError (·.map (·.under "filter"))

def targets (request : Request) : Option (List String) :=
  request.symbols.map (·.map Universe.standardForm)

end Request

def bound (read? : String → Option Calendar.Timestamp) (step : String) (text : Option String) :
    Option Calendar.Timestamp × List Violation :=
  match text with
  | none => (none, [])
  | some s =>
    match read? s with
    | some date => (some date, [])
    | none => (none, [⟨["date_range", step], .badDate s⟩])

/-- A range between two bounds, either of which may be missing. A bare last day counts in full. -/
def Scan.DateRange.ofText (first last : Option String) : Except (List Violation) DateRange :=
  let (start, startFaults) := bound Calendar.Timestamp.ofText? "0" first
  let (stop, stopFaults) := bound Calendar.Timestamp.endOfText? "1" last
  let reversed :=
    match start, stop with
    | some a, some b => if a.notAfter b then [] else [⟨["date_range"], .reversedRange⟩]
    | _, _ => []
  match startFaults ++ stopFaults ++ reversed with
  | [] => .ok ⟨start, stop⟩
  | faults => .error faults

def Request.options (request : Request) (standard : Order) : Except (List Violation) Options :=
  let order := request.order.getD standard
  match request.dates with
  | none => .ok { order }
  | some (first, last) =>
    (DateRange.ofText (some first) (some last)).map fun range => { order, range := some range }

end Screener
