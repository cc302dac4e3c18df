import Screener.Source.Basic
import Screener.SavedFilter
import Screener.Calendar.Text

/-! A database of price bars and saved filters, as a value. A bar is kept under its symbol and the text of
its date, a filter under its name. Before its tables are made, every access to them fails. -/
namespace Screener

/-- A stored bar. The text of the date need not be in the standard form, nor the further columns be a
document, since rows may also be put in from outside. -/
structure Row where
  symbol : String
  date : String
  opening : Float
  high : Float
  low : Float
  close : Float
  volume : Float
  extra : Option String

structure Store where
  ready : Bool
  /-- In the order in which they were last written. -/
  rows : List Row
  filters : Dictionary String

namespace Store

def blank : Store := ⟨false, [], .empty⟩

def prepared (store : Store) : Store := { store with ready := true }

def access {α : Type} (store : Store) (answer : Except Failure α) : Except Failure α :=
  if store.ready then answer else .error .query

def sameKey (a b : Row) : Bool := a.symbol == b.symbol && a.date == b.date

/-- Writes a row in place of the one with the same key. -/
def put (store : Store) (row : Row) : Store :=
  { store with rows := store.rows.filter (!sameKey row ·) ++ [row] }

/-- A number as a column holds it: without the sign of zero. -/
def columnNumber (x : Float) : Float := if x == 0.0 then 0.0 else x

def extraText (extra : Dictionary Float) : Option String :=
  if extra.isEmpty then none
  else
    some (Json.Value.object (extra.entries.map fun (name, value) => (name, .ofFloat value))).compact

def checkExtra (symbol : String) (extra : Dictionary Float) : Except Failure Unit :=
  match extra.names.find? Bar.isTaken with
  | some name => .error (.data (.reservedExtra symbol name))
  | none => .ok ()

def rowOf (bar : Bar) : Except Failure Row :=
  if [bar.opening, bar.high, bar.low, bar.close, bar.volume].any Float.isNaN then .error .query
  else
    .ok ⟨bar.symbol, bar.date.text, columnNumber bar.opening, columnNumber bar.high, columnNumber bar.low,
      columnNumber bar.close, columnNumber bar.volume, extraText bar.extra⟩

def insertBar (store : Store) (bar : Bar) : Except Failure Store := do
  checkExtra bar.symbol bar.extra
  store.access (.ok ())
  return store.put (← rowOf bar)

def insert (store : Store) (bars : List Bar) : Except Failure Store := bars.foldlM insertBar store

def nullEnd? (read : Nat) (quoted : Bool) : List Char → Option Nat
  | [] => none
  | '\\' :: c :: rest => nullEnd? (read + 1 + c.utf8Size) quoted rest
  | c :: rest =>
    if c = '"' then nullEnd? (read + 1) (!quoted) rest
    else if c = 'n' ∧ !quoted then some (read + "null".length)
    else nullEnd? (read + c.utf8Size) quoted rest

def extraFault (text : String) (fields : Json.Fields) : DocumentFault :=
  let other := fields.find? fun field => match field.2 with
    | .number _ => false
    | _ => true
  match other, nullEnd? 0 false text.toList with
  | some (_, .null), some column => .null column
  | _, _ => .malformed

def extraNumber? : String × Json.Value → Option (String × Float)
  | (name, .number n) => some (name, n.toFloat)
  | _ => none

def extraOf (symbol : String) (text : Option String) : Except Failure (Dictionary Float) :=
  match text with
  | none => .ok .empty
  | some text =>
    match Json.read text with
    | some (.object fields) =>
      match fields.mapM extraNumber? with
      | some entries => do
        let extra := Dictionary.ofList entries
        checkExtra symbol extra
        return extra
      | none => .error (.document (extraFault text fields))
    | _ => .error (.document .malformed)

def barOf (row : Row) : Except Failure Bar :=
  match Calendar.Timestamp.ofText? row.date with
  | none => .error .query
  | some date => do
    let extra ← extraOf row.symbol row.extra
    return ⟨row.symbol, date, row.opening, row.high, row.low, row.close, row.volume, extra⟩

def rowsOf (store : Store) (symbol : String) : List Row := store.rows.filter (·.symbol == symbol)

def bars (store : Store) (symbol : String) : Except Failure (List Bar) :=
  store.access do
    let bars ← (store.rowsOf symbol).mapM barOf
    if bars.isEmpty then throw (.noData symbol) else return Bar.byDate bars

def symbols (store : Store) : Except Failure (List String) :=
  store.access (.ok (Dictionary.ofList (store.rows.map fun row => (row.symbol, ()))).names)

def extremes : List String → Option (String × String)
  | [] => none
  | text :: rest =>
    match extremes rest with
    | none => some (text, text)
    | some (least, greatest) =>
      some (if text < least then text else least, if greatest < text then text else greatest)

def dateOf (text : String) : Except Failure Calendar.Timestamp :=
  match Calendar.Timestamp.ofText? text with
  | some date => .ok date
  | none => .error .query

def span? (store : Store) (symbol : String) : Except Failure (Option Span) :=
  store.access do
    let rows := store.rowsOf symbol
    match extremes (rows.map Row.date) with
    | none => return none
    | some (least, greatest) => return some ⟨← dateOf least, ← dateOf greatest, rows.length⟩

def source (store : Store) : Source := ⟨store.bars, store.symbols, store.span?⟩

def putFilter (store : Store) (name text : String) : Store :=
  { store with filters := store.filters.insert name text }

def save (store : Store) (saved : SavedFilter) : Except Failure Store :=
  store.access (.ok (store.putFilter saved.name saved.filter.text))

def load (store : Store) (name : String) : Except Failure (Option SavedFilter) :=
  store.access
    (match store.filters.get? name with
    | none => .ok none
    | some text => (SavedFilter.ofText name text).map some)

def filterNames (store : Store) : Except Failure (List String) := store.access (.ok store.filters.names)

def delete (store : Store) (name : String) : Except Failure (Bool × Store) :=
  store.access
    (.ok (store.filters.contains name, { store with filters := store.filters.erase name }))

end Store
end Screener
