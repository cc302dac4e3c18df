import Screener.Files
import Screener.Source.Records
import Screener.Universe

/-! A directory with a file for each symbol. The columns of a file are found by their names in its first
record, in any order; columns beyond the required ones must hold numbers where they are not blank. -/
namespace Screener.Directory

def requiredColumns : List String := ["date", "open", "high", "low", "close", "volume"]

structure Layout where
  date : Nat
  opening : Nat
  high : Nat
  low : Nat
  close : Nat
  volume : Nat
  extra : List (Nat × String)

def placeOf (path : String) (names : List String) (column : String) : Except DataFault Nat :=
  match names.idxOf? column with
  | some i => .ok i
  | none => .error (.missingColumn path column)

def extraColumns (path : String) (date : Nat) : List (String × Nat) → Except DataFault (List (Nat × String))
  | [] => .ok []
  | (name, i) :: rest =>
    if name.isEmpty || i == date || Bar.isStandard name then extraColumns path date rest
    else if Bar.isReserved name then .error (.reservedColumn path name)
    else (extraColumns path date rest).map ((i, name) :: ·)

def Layout.ofHeader (path : String) (header : List String) : Except DataFault Layout := do
  let names := header.map fun name => Text.lower (Text.trim name)
  let date ← placeOf path names "date"
  let opening ← placeOf path names "open"
  let high ← placeOf path names "high"
  let low ← placeOf path names "low"
  let close ← placeOf path names "close"
  let volume ← placeOf path names "volume"
  let extra ← extraColumns path date names.zipIdx
  return { date, opening, high, low, close, volume, extra }

structure Line where
  path : String
  number : Nat
  fields : List String

def Line.field (line : Line) (i : Nat) : String := line.fields.getD i ""

def Line.value (line : Line) (i : Nat) (column : String) : Except DataFault Float :=
  let raw := Text.trim (line.field i)
  match Decimal.number? raw with
  | some x => .ok x
  | none => .error (.badNumber line.path line.number column raw)

def Line.extra (line : Line) (found : Dictionary Float) :
    List (Nat × String) → Except DataFault (Dictionary Float)
  | [] => .ok found
  | (i, name) :: rest =>
    if (Text.trim (line.field i)).isEmpty then line.extra found rest
    else do
      let x ← line.value i name
      line.extra (found.insert name x) rest

def Line.bar (line : Line) (symbol : String) (layout : Layout) : Except DataFault Bar := do
  let text := line.field layout.date
  match Calendar.Timestamp.ofText? text with
  | none => throw (.badDate line.path line.number text)
  | some date =>
    let opening ← line.value layout.opening "open"
    let high ← line.value layout.high "high"
    let low ← line.value layout.low "low"
    let close ← line.value layout.close "close"
    let volume ← line.value layout.volume "volume"
    let extra ← line.extra .empty layout.extra
    return { symbol, date, opening, high, low, close, volume, extra }

def barsOf (path symbol : String) (width : Nat) (layout : Layout) :
    Nat → List Records.Record → Except DataFault (List Bar)
  | _, [] => .ok []
  | index, record :: rest =>
    if record.fields.length ≠ width then
      .error (.unevenRecord path ⟨index, record.start.line, record.start.byte, record.fields.length, width⟩)
    else do
      let bar ← (Line.mk path (index + 1) record.fields).bar symbol layout
      let others ← barsOf path symbol width layout (index + 1) rest
      return bar :: others

def barsOfRecords (path symbol : String) (records : List Records.Record) : Except DataFault (List Bar) := do
  let header := match records with
    | [] => []
    | record :: _ => record.fields
  let layout ← Layout.ofHeader path header
  let bars ← barsOf path symbol header.length layout 1 records.tail
  return Bar.byDate bars

/-- A file name without its last ending, and that ending. A point in front begins no ending. -/
def stemAndEnding (name : String) : String × Option String :=
  match name.toList.reverse.span (· != '.') with
  | (_, []) | (_, ['.']) => (name, none)
  | (ending, _ :: stem) => (String.ofList stem.reverse, some (String.ofList ending.reverse))

def isTable (name : String) : Bool :=
  match (stemAndEnding name).2 with
  | some ending => Text.sameIgnoringCase ending "csv"
  | none => false

/-- The path of a symbol's file: the file of exactly that name, else the first one listed whose name
differs from it in case alone. -/
def fileOf? (files : Files) (directory symbol : String) : Option String :=
  let exact := Files.join directory (symbol ++ ".csv")
  if files.isFile exact then some exact
  else
    let fits (entry : String × Bool) : Bool :=
      isTable entry.1 && entry.2 && Text.sameIgnoringCase (stemAndEnding entry.1).1 symbol
    ((files.entries directory).find? fits).map fun entry => Files.join directory entry.1

def bars (files : Files) (directory symbol : String) : Except Failure (List Bar) :=
  match fileOf? files directory symbol with
  | none => .error (.noData symbol)
  | some path =>
    match files.text? path with
    | none => .error (.data (.unreadable path))
    | some content => (barsOfRecords path symbol (Records.ofText content)).mapError .data

def symbols (files : Files) (directory : String) : Except Failure (List String) :=
  if files.isDirectory directory then
    let stems := ((files.entries directory).filter fun entry => isTable entry.1).map fun entry =>
      (Text.upper (stemAndEnding entry.1).1, ())
    .ok (Dictionary.ofList stems).names
  else .error (.data (.unreadableDirectory directory))

def source (files : Files) (directory : String) : Source where
  bars := bars files directory
  symbols := symbols files directory
  span? symbol := (bars files directory symbol).map Span.ofBars?

end Screener.Directory
