import Screener.Store.Basic

/-! Files and directories as a value. A place is a list of names, from the root down; the text of a path
has slashes between them. A path leads on only from what is a directory. -/
namespace Screener

inductive Node where
  | text (content : String)
  /-- A file that is no text. -/
  | binary
  | database (store : Store)
  | directory
  /-- A device that is empty when it is read and forgets what is written to it. -/
  | sink

def Node.isFile : Node → Bool
  | .text _ | .binary | .database _ => true
  | .directory | .sink => false

def Node.isDirectory : Node → Bool
  | .directory => true
  | _ => false

/-- Nodes in the order in which the system lists them. A place has one node at most. -/
structure Files where
  nodes : List (List String × Node)

namespace Files

def at? (files : Files) (place : List String) : Option Node := files.nodes.lookup place

def put (files : Files) (place : List String) (node : Node) : Files :=
  match files.at? place with
  | some .sink => files
  | some _ => ⟨files.nodes.map fun entry => if entry.1 == place then (place, node) else entry⟩
  | none => ⟨files.nodes ++ [(place, node)]⟩

def isDirectoryAt (files : Files) (place : List String) : Bool :=
  match files.at? place with
  | some node => node.isDirectory
  | none => place.isEmpty || files.nodes.any fun (other, _) => place.isPrefixOf other

def names (text : String) : List String := (text.toList.splitOn '/').map String.ofList

def isName (name : String) : Bool := name.utf8ByteSize ≤ 255 && !name.toList.contains (Char.ofNat 0)

/-- One step on the way, out of a directory. A point stays there, and so does a name without letters; a
pair of points leads back up. -/
def step? (files : Files) (place : List String) (name : String) : Option (List String) :=
  if !files.isDirectoryAt place then none
  else if name = "" ∨ name = "." then some place
  else if name = ".." then some place.dropLast
  else if isName name then some (place ++ [name])
  else none

def place? (files : Files) (text : String) : Option (List String) := (names text).foldlM files.step? []

/-- One step of a path that is put in order before anything is opened: a pair of points undoes a name,
whatever stands there, and what is there but is no directory does not let one pass. -/
def foldStep? (files : Files) (place : List String) (name : String) : Option (List String) :=
  if name = "" ∨ name = "." then some place
  else if name = ".." then some place.dropLast
  else if isName name && (files.at? place).all Node.isDirectory then some (place ++ [name])
  else none

def foldedPlace? (files : Files) (text : String) : Option (List String) :=
  (names text).foldlM files.foldStep? []

/-- The text of a path below a directory. An absolute text stands for itself. -/
def join (directory name : String) : String :=
  if name.startsWith "/" ∨ directory.isEmpty then name
  else if directory.endsWith "/" then directory ++ name
  else directory ++ "/" ++ name

def find? (files : Files) (text : String) : Option Node := (files.place? text).bind files.at?

def isFile (files : Files) (text : String) : Bool := (files.find? text).any Node.isFile

def isDirectory (files : Files) (text : String) : Bool := (files.place? text).any files.isDirectoryAt

def below? (directory place : List String) : Option (String × Bool) :=
  if directory.isPrefixOf place then
    match place.drop directory.length with
    | [] => none
    | name :: rest => some (name, !rest.isEmpty)
  else none

def entries (files : Files) (directory : String) : List (String × Bool) :=
  match files.place? directory with
  | none => []
  | some place =>
    let found := files.nodes.filterMap fun (other, node) =>
      (below? place other).map fun (name, deeper) => (name, !deeper && node.isFile)
    found.eraseDups

def text? (files : Files) (text : String) : Option String :=
  match files.find? text with
  | some (.text content) => some content
  | some .sink => some ""
  | _ => none

def write? (files : Files) (text : String) (node : Node) : Option Files := do
  let place ← files.place? text
  if files.isDirectoryAt place then none else some (files.put place node)

end Files
end Screener
