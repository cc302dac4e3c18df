import Screener.Command.Run
import Screener.Store.Archive

/-! The program itself. It takes the files that a command names into a value, runs the command over that
value, prints what it printed and writes the files that it changed. -/
namespace Screener.Program
open Command (Arguments)

def nodeOf (path : String) : IO (Option Node) := do
  let place := (← IO.currentDir) / path
  if ← place.isDir then return some .directory
  else if ← place.pathExists then
    if (← place.metadata).type != .file then return some .sink
    let bytes ← IO.FS.readBinFile place
    match String.fromUTF8? bytes with
    | some content => return some (.text content)
    | none => return some .binary
  else return none

def leading (path : String) : List String :=
  let names := Files.names path
  (List.range names.length).map fun i => "/".intercalate (names.take (i + 1))

/-- Takes in what stands at a path. A text that is the archive of a database stands for that database. -/
def takeOne (files : Files) (path : String) : IO Files := do
  match ← nodeOf path, Files.foldedPlace? ⟨[]⟩ path with
  | some node, some place =>
    let node := match node with
      | .text content => ((Store.ofArchive? content).map Node.database).getD node
      | node => node
    return if (files.at? place).isSome then files else files.put place node
  | _, _ => return files

def take (files : Files) (path : String) : IO Files := (leading path).foldlM takeOne files

def takeAll (files : Files) (paths : List String) : IO Files := paths.foldlM take files

def listed (directory : String) : IO (List String) := do
  let place := (← IO.currentDir) / directory
  if ← place.isDir then
    let entries ← place.readDir
    return entries.toList.map fun entry => Files.join directory entry.fileName
  else return []

def config? : Arguments → Option String
  | .scan arguments => some arguments.config
  | .validate _ => none
  | .filters config _ | .listSymbols config | .info config _ => some config

def others : Arguments → List String
  | .scan arguments =>
    let filter := match arguments.filter with
      | .file path | .request path => [path]
      | .saved _ => []
    filter ++ arguments.output.toList
  | .validate path | .filters _ (.save _ path) => [path]
  | _ => []

def setting? (arguments : Arguments) (files : Files) (group key : String) : Option String := do
  let ini ← Settings.Ini.ofText? (← files.text? (← config? arguments))
  ini.lookup group key

def databaseFile? (arguments : Arguments) (files : Files) : Option String := do
  let name ← (Store.Name.ofText (← setting? arguments files "sqlite" "path")).toOption
  name.file

def gather (arguments : Arguments) : IO Files := do
  let files ← takeAll ⟨[([], .directory)]⟩ ((config? arguments).toList ++ others arguments)
  let directories := (setting? arguments files "data" "csv_dir").toList
  let inside ← directories.mapM listed
  takeAll files (directories ++ inside.flatten ++ (databaseFile? arguments files).toList)

def content? (files : Files) (path : String) : Option String :=
  match files.find? path with
  | some (.text content) => some content
  | some (.database store) => some store.archive
  | _ => none

def put (before after : Files) (path : String) : IO Unit := do
  match content? after path with
  | some content =>
    if content? before path != some content then IO.FS.writeFile ((← IO.currentDir) / path) content
  | none => return

def written (arguments : Arguments) (files : Files) : List String :=
  let output := match arguments with
    | .scan given => given.output.toList
    | _ => []
  output ++ (databaseFile? arguments files).toList

def usage : String :=
  "usage: screener scan -c CONFIG (-f FILTER | --saved NAME | --request REQUEST) [--symbols LIST]\n" ++
  "                [--start DATE] [--end DATE] [--order ORDER] [--explain] [-o OUTPUT]\n" ++
  "       screener validate -f FILTER\n" ++
  "       screener filters -c CONFIG (save NAME -f FILTER | list | show NAME | delete NAME)\n" ++
  "       screener list-symbols -c CONFIG\n" ++
  "       screener info -c CONFIG --symbol SYMBOL\n"

end Screener.Program

open Screener in
def main (words : List String) : IO UInt32 := do
  match Command.Arguments.ofWords words with
  | .error refusal =>
    if refusal = .help then IO.print Program.usage else IO.eprint Program.usage
    return refusal.exitCode.toUInt32
  | .ok arguments =>
    let files ← Program.gather arguments
    let (exit, effects) := Command.run arguments files
    IO.print effects.output
    IO.eprint effects.errors
    for path in Program.written arguments files do
      Program.put files effects.files path
    return exit.toUInt32
