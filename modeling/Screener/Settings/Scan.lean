import Screener.Settings.Ini
import Screener.Failure
import Screener.Scan.Options
import Screener.Universe

/-! The settings of a scan. Values that are there must be valid; a standard value stands in only for a
value that is missing. -/
namespace Screener.Settings

def integer? (text : String) : Option Int :=
  let (negative, digits) := Decimal.signOf text.toList
  if digits.isEmpty || !digits.all Char.isDigit then none
  else
    let size : Int := Decimal.whole digits
    let n := if negative then -size else size
    let bound : Int := Nat.pow 2 63
    if -bound ≤ n ∧ n < bound then some n else none

def Lookup.text (lookup : Lookup) (group key standard : String) : String :=
  (lookup group key).getD standard

def Lookup.integer (lookup : Lookup) (group key : String) (standard : Int) : Except SettingFault Int :=
  match lookup group key with
  | none => .ok standard
  | some raw =>
    match integer? raw with
    | some n => .ok n
    | none => .error (.notInteger raw)

def boolean? (text : String) : Option Bool :=
  let word := Text.lowerAscii text
  if ["true", "yes", "on", "1"].contains word then some true
  else if ["false", "no", "off", "0"].contains word then some false
  else none

def Lookup.boolean (lookup : Lookup) (group key : String) (standard : Bool) : Except SettingFault Bool :=
  match lookup group key with
  | none => .ok standard
  | some raw =>
    match boolean? raw with
    | some b => .ok b
    | none => .error (.notBoolean raw)

inductive DataSource where
  | directory
  | database
  deriving Repr, DecidableEq

def DataSource.name : DataSource → String
  | .directory => "csv"
  | .database => "sqlite"

def DataSource.ofName? (name : String) : Option DataSource :=
  [.directory, .database].find? (·.name == name)

inductive LogFormat where
  | text
  | json
  deriving Repr, DecidableEq

def LogFormat.name : LogFormat → String
  | .text => "text"
  | .json => "json"

def LogFormat.ofName? (name : String) : Option LogFormat := [text, json].find? (·.name == name)

def LogFormat.ofSetting : String → Except Text.UnknownWord LogFormat :=
  Text.choose "log format" "text or json" ofName?

def logLevels : List String := ["trace", "debug", "info", "warn", "error"]

structure Logging where
  level : String
  format : LogFormat
  deriving Repr, DecidableEq

structure ScanSettings where
  source : DataSource
  directory : Option String
  base : Timeframe
  database : Option String
  poolSize : Nat
  parallel : Bool
  threads : Nat
  order : Scan.Order
  symbols : Option (List String)
  logging : Logging
  deriving Repr, DecidableEq

def mostPoolSize : Nat := 64

def mostThreads : Nat := 1024

def located {α : Type} (group key : String) (value : Except SettingFault α) : Except Failure α :=
  value.mapError (.configInvalid group key)

def chosen {α : Type} (choice : Except Text.UnknownWord α) : Except SettingFault α :=
  choice.mapError .unknownWord

def sourceOf (lookup : Lookup) : Except Failure DataSource :=
  let word := Text.lowerAscii (lookup.text "data" "source" "csv")
  match DataSource.ofName? word with
  | some source => .ok source
  | none => .error (.configInvalid "data" "source" (.unknownWord ⟨"source", word, "csv or sqlite"⟩))

def bounded (lookup : Lookup) (group key : String) (standard : Int) (least most : Nat) :
    Except Failure Nat := do
  let n ← located group key (lookup.integer group key standard)
  if (least : Int) ≤ n ∧ n ≤ most then .ok n.toNat
  else .error (.configInvalid group key (.outOfRange key least most))

def poolSizeOf (lookup : Lookup) : Except Failure Nat :=
  bounded lookup "sqlite" "pool_size" 4 1 mostPoolSize

def symbolsOf (lookup : Lookup) : Except Failure (Option (List String)) :=
  match lookup "scan" "symbols" with
  | none => .ok none
  | some list => located "scan" "symbols" (((Universe.ofText list).mapError .symbolList).map some)

def Logging.ofLookup (lookup : Lookup) : Except Failure Logging := do
  let level := Text.lowerAscii (lookup.text "logging" "level" "info")
  if logLevels.contains level then
    let format ← located "logging" "format"
      (chosen (LogFormat.ofSetting (lookup.text "logging" "format" "text")))
    return ⟨level, format⟩
  else
    throw (.configInvalid "logging" "level"
      (.unknownWord ⟨"level", level, "one of " ++ ", ".intercalate logLevels⟩))

def demanded (needed : Bool) (group key : String) (value : Option String) : Except Failure Unit :=
  if needed && value.isNone then .error (.configMissing group key) else .ok ()

def ScanSettings.ofLookup (lookup : Lookup) : Except Failure ScanSettings := do
  let source ← sourceOf lookup
  let directory := lookup "data" "csv_dir"
  demanded (source == .directory) "data" "csv_dir" directory
  let base ← located "data" "base_timeframe"
    (chosen (Timeframe.ofSetting (lookup.text "data" "base_timeframe" "daily")))
  let database := lookup "sqlite" "path"
  demanded (source == .database) "sqlite" "path" database
  let poolSize ← poolSizeOf lookup
  let parallel ← located "scan" "parallel" (lookup.boolean "scan" "parallel" true)
  let threads ← bounded lookup "scan" "threads" 0 0 mostThreads
  let order ← located "scan" "order" (chosen (Scan.Order.ofSetting (lookup.text "scan" "order" "desc")))
  let symbols ← symbolsOf lookup
  let logging ← Logging.ofLookup lookup
  return { source, directory, base, database, poolSize, parallel, threads, order, symbols, logging }

structure StoreSettings where
  database : String
  poolSize : Nat
  deriving Repr, DecidableEq

def StoreSettings.ofLookup (lookup : Lookup) : Except Failure StoreSettings := do
  match lookup "sqlite" "path" with
  | none => throw (.configMissing "sqlite" "path")
  | some database => return ⟨database, ← poolSizeOf lookup⟩

end Screener.Settings
