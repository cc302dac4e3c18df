import Screener.Store.Basic

/-! The text in which a database is kept in a file: a document with its rows and its filters. Numbers
stand in it as texts, which read back to the same double. -/
namespace Screener.Store
open Json (Value)

def numberJson (x : Float) : Value := .text (Decimal.Form.running.render x)

def Row.toJson (row : Row) : Value :=
  .array ([.text row.symbol, .text row.date] ++
    [row.opening, row.high, row.low, row.close, row.volume].map numberJson ++ [.ofOption .text row.extra])

def toJson (store : Store) : Value :=
  .object [("ready", .boolean store.ready), ("rows", .array (store.rows.map Row.toJson)),
    ("filters", .object (store.filters.entries.map fun (name, text) => (name, .text text)))]

def text? : Value → Option String
  | .text s => some s
  | _ => none

def number? (value : Value) : Option Float := (text? value).bind Decimal.number?

def Row.ofJson? : Value → Option Row
  | .array [symbol, date, opening, high, low, close, volume, extra] => do
    let extra ← match extra with
      | .null => some none
      | value => (text? value).map some
    return ⟨← text? symbol, ← text? date, ← number? opening, ← number? high, ← number? low, ← number? close,
      ← number? volume, extra⟩
  | _ => none

def filterOfJson? (field : String × Value) : Option (String × String) :=
  (text? field.2).map (field.1, ·)

def ofJson? : Value → Option Store
  | .object [("ready", .boolean ready), ("rows", .array rows), ("filters", .object filters)] => do
    return ⟨ready, ← rows.mapM Row.ofJson?, .ofList (← filters.mapM filterOfJson?)⟩
  | _ => none

def archive (store : Store) : String := store.toJson.compact

def ofArchive? (text : String) : Option Store := (Json.read text).bind ofJson?

end Screener.Store
