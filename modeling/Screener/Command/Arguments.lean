import Screener.Command.Options
import Screener.Scan.Options

/-! The commands of the program and how they are written on a command line. -/
namespace Screener.Command

inductive FilterSource where
  | file (path : String)
  | saved (name : String)
  | request (path : String)
  deriving Repr, DecidableEq

structure ScanArguments where
  config : String
  filter : FilterSource
  symbols : Option String
  start : Option String
  stop : Option String
  order : Option Scan.Order
  explain : Bool
  output : Option String
  deriving Repr, DecidableEq

inductive FilterAction where
  | save (name path : String)
  | list
  | show (name : String)
  | delete (name : String)
  deriving Repr, DecidableEq

inductive Arguments where
  | scan (arguments : ScanArguments)
  | validate (path : String)
  | filters (config : String) (action : FilterAction)
  | listSymbols (config : String)
  | info (config symbol : String)
  deriving Repr, DecidableEq

def Refusal.exitCode : Refusal → Nat
  | .help => 0
  | .misuse => 2

def configFlag : Flag := ⟨"config", some 'c', .path⟩

def filterFlag : Flag := ⟨"filter", some 'f', .path⟩

def scanFlags : List Flag := [
  configFlag, filterFlag, ⟨"saved", none, .text⟩, ⟨"request", none, .path⟩, ⟨"symbols", none, .text⟩,
  ⟨"start", none, .text⟩, ⟨"end", none, .text⟩, ⟨"order", none, .order⟩, ⟨"explain", none, .nothing⟩,
  ⟨"output", some 'o', .path⟩]

def demand (value : Option String) : Except Refusal String :=
  match value with
  | some value => .ok value
  | none => .error .misuse

def filterSource (given : Given) : Except Refusal FilterSource :=
  match given.value? "filter", given.value? "saved", given.value? "request" with
  | some path, none, none => .ok (.file path)
  | none, some name, none => .ok (.saved name)
  | none, none, some path => .ok (.request path)
  | _, _, _ => .error .misuse

def readScan (words : List String) : Except Refusal Arguments := do
  let (given, _) ← readOptions scanFlags (.atMost 0) .none words
  let config ← demand (given.value? "config")
  let filter ← filterSource given
  return .scan {
    config
    filter
    symbols := given.value? "symbols"
    start := given.value? "start"
    stop := given.value? "end"
    order := (given.value? "order").bind orderOf?
    explain := given.has "explain"
    output := given.value? "output" }

def readValidate (words : List String) : Except Refusal Arguments := do
  let (given, _) ← readOptions [filterFlag] (.atMost 0) .none words
  return .validate (← demand (given.value? "filter"))

def readListSymbols (words : List String) : Except Refusal Arguments := do
  let (given, _) ← readOptions [configFlag] (.atMost 0) .none words
  return .listSymbols (← demand (given.value? "config"))

def readInfo (words : List String) : Except Refusal Arguments := do
  let (given, _) ← readOptions [configFlag, ⟨"symbol", none, .text⟩] (.atMost 0) .none words
  return .info (← demand (given.value? "config")) (← demand (given.value? "symbol"))

def readHelp (commands : List String) (inner : String → List String) : List String → Except Refusal Arguments
  | [] => .error .help
  | [command] => .error (if commands.contains command then .help else .misuse)
  | [command, next] =>
    .error (if commands.contains command && (inner command).contains next then .help else .misuse)
  | _ => .error .misuse

def actionNames : List String := ["save", "list", "show", "delete", "help"]

def readAction : List String → Except Refusal FilterAction
  | [] => .error .misuse
  | name :: rest =>
    if name = "save" then do
      let (given, _) ← readOptions [filterFlag] (.atMost 1) .none rest
      return .save (← demand given.words.head?) (← demand (given.value? "filter"))
    else if name = "list" then do
      let _ ← readOptions [] (.atMost 0) .none rest
      return .list
    else if name = "show" then do
      let (given, _) ← readOptions [] (.atMost 1) .none rest
      return .show (← demand given.words.head?)
    else if name = "delete" then do
      let (given, _) ← readOptions [] (.atMost 1) .none rest
      return .delete (← demand given.words.head?)
    else .error .misuse

def readFilters (words : List String) : Except Refusal Arguments := do
  let (given, rest) ← readOptions [configFlag] .command .none words
  match rest with
  | "help" :: rest => readHelp actionNames (fun _ => []) rest
  | rest =>
    let action ← readAction rest
    return .filters (← demand ((← given.settle).value? "config")) action

def commandNames : List String := ["scan", "validate", "filters", "list-symbols", "info", "help"]

def Arguments.ofWords (words : List String) : Except Refusal Arguments := do
  let (_, rest) ← readOptions [] .command .none words
  match rest with
  | [] => .error .misuse
  | name :: rest =>
    if name = "scan" then readScan rest
    else if name = "validate" then readValidate rest
    else if name = "filters" then readFilters rest
    else if name = "list-symbols" then readListSymbols rest
    else if name = "info" then readInfo rest
    else if name = "help" then
      readHelp commandNames (fun command => if command = "filters" then actionNames else []) rest
    else .error .misuse

end Screener.Command
