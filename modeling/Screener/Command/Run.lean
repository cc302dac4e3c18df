import Screener.Command.Arguments
import Screener.Pipeline
import Screener.Source.Directory
import Screener.Store.Session

/-! Running a command over the files it finds. What it prints, the code it exits with and the files it
leaves are its result. -/
namespace Screener.Command
open Settings (Lookup ScanSettings StoreSettings Logging)

/-- What a command printed, and the files as it left them. -/
structure Effects where
  output : String
  errors : String
  files : Files

/-- Steps of a command. A failure keeps what was done before it. -/
abbrev Run (α : Type) := ExceptT Failure (StateM Effects) α

def print (line : String) : Run Unit := modify fun e => { e with output := e.output ++ line ++ "\n" }

def note (line : String) : Run Unit := modify fun e => { e with errors := e.errors ++ line ++ "\n" }

def readText (path : String) : Run String := do
  match (← get).files.text? path with
  | some content => return content
  | none => throw .files

def setFiles (files : Files) : Run Unit := modify fun e => { e with files }

def write (path : String) (node : Node) : Run Unit := do
  match (← get).files.write? path node with
  | some files => setFiles files
  | none => throw .files

def readConfig (path : String) : Run Lookup := do
  match ((← get).files.text? path).bind Settings.Ini.ofText? with
  | some ini => return ini.lookup
  | none => throw (.configSyntax path)

def checked {α : Type} (result : Except (List Filter.Violation) α) : Run α :=
  match result with
  | .ok x => return x
  | .error violations => throw (.invalid violations)

def readFilter (path : String) : Run Filter.Expression := do
  checked (Filter.Expression.ofText (← readText path))

def openStore (name : String) : Run (Session × Store) := do
  match (Store.Name.ofText name).bind (Session.ofName (← get).files) with
  | .error fault => throw (.data (.unopened name fault))
  | .ok (session, files) => do
    setFiles files
    let (store, files) ← (session.prepared files : Except Failure (Store × Files))
    setFiles files
    return (session, store)

def keep (session : Session) (store : Store) : Run Unit := do
  setFiles (← (session.keep store (← get).files : Except Failure Files))

def openFilters (lookup : Lookup) : Run (Session × Store) := do
  let settings ← (StoreSettings.ofLookup lookup : Except Failure StoreSettings)
  openStore settings.database

def openSource (settings : ScanSettings) : Run Source :=
  match settings.source with
  | .directory =>
    match settings.directory with
    | some directory => do return Directory.source (← get).files directory
    | none => throw (.configMissing "data" "csv_dir")
  | .database =>
    match settings.database with
    | some name => do return (← openStore name).2.source
    | none => throw (.configMissing "sqlite" "path")

def basis (lookup : Lookup) (settings : ScanSettings) : FilterSource → Run Plan
  | .request path => do
    let request ← (Request.ofText (← readText path) : Except Failure Request)
    let filter ← checked request.expression
    let options ← checked (request.options settings.order)
    return ⟨filter, options, request.targets⟩
  | .saved name => do
    let (_, store) ← openFilters lookup
    match ← (store.load name : Except Failure (Option SavedFilter)) with
    | some saved => return ⟨saved.filter, { order := settings.order }, none⟩
    | none => throw (.noFilter name)
  | .file path => do return ⟨← readFilter path, { order := settings.order }, none⟩

def rangeOf (arguments : ScanArguments) (range : Option Scan.DateRange) :
    Except (List Filter.Violation) (Option Scan.DateRange) :=
  if arguments.start.isSome || arguments.stop.isSome then
    (Scan.DateRange.ofText arguments.start arguments.stop).map some
  else .ok range

def symbolsOf (arguments : ScanArguments) (symbols : Option (List String)) :
    Except (List Filter.Violation) (Option (List String)) :=
  match arguments.symbols with
  | none => .ok symbols
  | some list =>
    match Universe.ofText list with
    | .ok symbols => .ok (some symbols)
    | .error fault => .error [⟨["symbols"], .symbolList fault⟩]

/-- The plan of a scan. Options on the command line win over the request, and that over the settings. -/
def planOf (arguments : ScanArguments) (lookup : Lookup) (settings : ScanSettings) : Run Plan := do
  let plan ← basis lookup settings arguments.filter
  let range ← checked (rangeOf arguments plan.options.range)
  let symbols ← checked (symbolsOf arguments plan.symbols)
  let options : Scan.Options :=
    { order := arguments.order.getD plan.options.order, range, explain := arguments.explain }
  return ⟨plan.filter, options, symbols⟩

def settingsOf (lookup : Lookup) : Run ScanSettings :=
  (ScanSettings.ofLookup lookup : Except Failure ScanSettings)

def runScan (arguments : ScanArguments) : Run Unit := do
  let lookup ← readConfig arguments.config
  let settings ← settingsOf lookup
  let plan ← planOf arguments lookup settings
  let source ← openSource settings
  let report ← (plan.report settings source : Except Failure Scan.Report)
  let text := report.toJson.pretty
  match arguments.output with
  | some path => do
    write path (.text text)
    note s!"{report.results.length} matches written to {path}"
  | none => print text

def runValidate (path : String) : Run Unit := do
  note ("Validating filter: " ++ path)
  let filter ← readFilter path
  note ("  Parsed:   " ++ filter.wording)
  note s!"  Lookback: {filter.window} rows"
  let indicators := filter.keys.map fun key => key.indicator.title ++ "(" ++ key.column ++ ")"
  if !indicators.isEmpty then note ("  Indicators: " ++ ", ".intercalate indicators)
  print filter.text
  note "\nFilter is valid."

def runAction (session : Session) (store : Store) : FilterAction → Run Unit
  | .save name file => do
    let filter ← readFilter file
    let saved ← (SavedFilter.ofExpression name filter : Except Failure SavedFilter)
    let store ← (store.save saved : Except Failure Store)
    keep session store
    note ("Saved filter '" ++ saved.name ++ "'")
  | .list => do
    let names ← (store.filterNames : Except Failure (List String))
    names.forM print
    note s!"{names.length} saved filters"
  | .show name => do
    match ← (store.load name : Except Failure (Option SavedFilter)) with
    | some saved => print saved.filter.toJson.pretty
    | none => throw (.noFilter name)
  | .delete name => do
    let (found, store) ← (store.delete name : Except Failure (Bool × Store))
    keep session store
    if found then note ("Deleted filter '" ++ name ++ "'") else throw (.noFilter name)

def runFilters (config : String) (action : FilterAction) : Run Unit := do
  let lookup ← readConfig config
  let _ ← (Logging.ofLookup lookup : Except Failure Logging)
  let (session, store) ← openFilters lookup
  runAction session store action

def runListSymbols (config : String) : Run Unit := do
  let settings ← settingsOf (← readConfig config)
  let source ← openSource settings
  let symbols ← (source.symbols : Except Failure (List String))
  if symbols.isEmpty then note "No symbols found"
  else
    symbols.forM print
    note s!"{symbols.length} symbols found"

def runInfo (config symbol : String) : Run Unit := do
  let settings ← settingsOf (← readConfig config)
  let symbol := Universe.standardForm symbol
  let source ← openSource settings
  match ← (source.span? symbol : Except Failure (Option Span)) with
  | some span =>
    print s!"{symbol}: {span.count} rows, {span.first.text} to {span.last.text}"
  | none => throw (.noData symbol)

def steps : Arguments → Run Unit
  | .scan arguments => runScan arguments
  | .validate path => runValidate path
  | .filters config action => runFilters config action
  | .listSymbols config => runListSymbols config
  | .info config symbol => runInfo config symbol

def run (arguments : Arguments) (files : Files) : Nat × Effects :=
  match (steps arguments).run.run ⟨"", "", files⟩ with
  | (.ok (), effects) => (0, effects)
  | (.error failure, effects) =>
    (failure.exitCode, { effects with errors := effects.errors ++ "error: " ++ failure.message ++ "\n" })

end Screener.Command
