import Screener.Text.Blank
import Screener.Text.Case

/-! Settings in lines `key = value` under headings in brackets. The case of headings and keys does not
matter, comments begin with a semicolon or a hash, and of several equal keys the last one stands. -/
namespace Screener.Settings

structure Entry where
  heading : String
  key : String
  value : Option String
  deriving Repr, DecidableEq

def noHeading : String := "default"

def isComment (c : Char) : Bool := c = ';' || c = '#'

def content (line : List Char) : List Char :=
  Text.trimChars ((Text.trimChars line).takeWhile (!isComment ·))

def untilLastBracket (cs : List Char) : Option (List Char) :=
  match cs.reverse.dropWhile (· != ']') with
  | [] => none
  | _ :: reversed => some reversed.reverse

def keyAndValue (cs : List Char) : List Char × Option (List Char) :=
  let isSign (c : Char) : Bool := c = '=' || c = ':'
  match cs.dropWhile (!isSign ·) with
  | [] => (cs, none)
  | _ :: value => (Text.trimChars (cs.takeWhile (!isSign ·)), some (Text.trimChars value))

def readLines (heading : String) : List (List Char) → Option (List Entry)
  | [] => some []
  | line :: rest =>
    match content line with
    | [] => readLines heading rest
    | '[' :: inside => do
      let name ← untilLastBracket inside
      readLines (Text.lower (String.ofList (Text.trimChars name))) rest
    | text =>
      let (key, value) := keyAndValue text
      if key.isEmpty then none
      else do
        let others ← readLines heading rest
        return ⟨heading, Text.lower (String.ofList key), value.map String.ofList⟩ :: others

structure Ini where
  entries : List Entry
  deriving Repr, DecidableEq

def Ini.ofText? (text : String) : Option Ini :=
  (readLines noHeading (text.toList.splitOn '\n')).map (⟨·⟩)

def Ini.find? (ini : Ini) (heading key : String) : Option String :=
  let isAsked (entry : Entry) : Bool :=
    entry.heading == Text.lower heading && entry.key == Text.lower key
  (ini.entries.reverse.find? isAsked).bind (·.value)

abbrev Lookup := String → String → Option String

/-- The value under a key, without blanks around it; a blank value counts as none. -/
def Ini.lookup (ini : Ini) : Lookup := fun heading key =>
  (ini.find? heading key).bind fun raw =>
    let value := Text.trim raw
    if value.isEmpty then none else some value

end Screener.Settings
