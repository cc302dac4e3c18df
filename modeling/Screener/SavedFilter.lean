import Screener.Filter.Document
import Screener.Filter.Canonical
import Screener.Failure

/-! Filters under names. A name has one to 64 letters, digits, hyphens, underscores or points. -/
namespace Screener

structure SavedFilter where
  name : String
  filter : Filter.Expression

namespace SavedFilter

def mostBytes : Nat := 64

def isNameChar (c : Char) : Bool := c.isAlphanum || c = '-' || c = '_' || c = '.'

def nameOf (text : String) : Except Failure String :=
  let name := Text.trim text
  if name.isEmpty || mostBytes < name.utf8ByteSize then .error (.filterName (.length mostBytes))
  else
    match name.toList.find? (!isNameChar ·) with
    | some bad => .error (.filterName (.character name bad))
    | none => .ok name

def ofExpression (name : String) (filter : Filter.Expression) : Except Failure SavedFilter :=
  (nameOf name).map (⟨·, filter⟩)

/-- Reads the text of a filter and then its name. -/
def ofText (name text : String) : Except Failure SavedFilter :=
  match Json.read text with
  | none => .error (.document .malformed)
  | some value =>
    match Filter.Expression.ofJson value.normal with
    | .error violations => .error (.invalid violations)
    | .ok filter => ofExpression name filter

def toJson (saved : SavedFilter) : Json.Value :=
  .object [("name", .text saved.name), ("filter", .object saved.filter.fields)]

end SavedFilter
end Screener
