import Screener.Files
import Screener.Store.Name

/-! Open databases. One in a file is read from the files and written back to them; one in memory begins
blank and goes nowhere. -/
namespace Screener

structure Session where
  place : Option (List String)
  writable : Bool

namespace Session

/-- Opens the file at a place; if nothing is there, a mode that allows it makes an empty file. -/
def reach (files : Files) (mode : Store.Mode) (place : List String) : Except OpenFault Files :=
  if place.isEmpty then .error .unreachable
  else if files.isDirectoryAt place then .error (if mode = .readOnly then .unreadable else .unreachable)
  else if (files.at? place).isSome then .ok files
  else if mode = .create && files.isDirectoryAt place.dropLast then .ok (files.put place (.text ""))
  else .error .unreachable

def ofName (files : Files) (name : Store.Name) : Except OpenFault (Session × Files) :=
  match name.file with
  | none => .ok (⟨none, name.isWritable⟩, files)
  | some path =>
    match files.foldedPlace? path with
    | none => .error .unreachable
    | some place => do return (⟨some place, name.isWritable⟩, ← reach files name.mode place)

def store (session : Session) (files : Files) : Except Failure Store :=
  match session.place with
  | none => .ok .blank
  | some place =>
    match files.at? place with
    | some (.database store) => .ok store
    | some (.text content) => if content.isEmpty then .ok .blank else .error .query
    | _ => .error .query

def keep (session : Session) (store : Store) (files : Files) : Except Failure Files :=
  if !session.writable then .error .query
  else
    match session.place with
    | none => .ok files
    | some place => .ok (files.put place (.database store))

def prepared (session : Session) (files : Files) : Except Failure (Store × Files) := do
  let store ← session.store files
  if store.ready then return (store, files)
  else return (store.prepared, ← session.keep store.prepared files)

end Session
end Screener
