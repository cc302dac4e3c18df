import Screener.Json.Value
import Screener.Decimal.Form

/-! The text of a document, on one line or with one field or item to a line. -/
namespace Screener.Json

def hexDigit (n : Nat) : Char := (Nat.toDigits 16 (n % 16)).headD '0'

def escape (c : Char) : List Char :=
  if c = '"' then ['\\', '"']
  else if c = '\\' then ['\\', '\\']
  else if c = '\n' then ['\\', 'n']
  else if c = '\r' then ['\\', 'r']
  else if c = '\t' then ['\\', 't']
  else if c.toNat = 8 then ['\\', 'b']
  else if c.toNat = 12 then ['\\', 'f']
  else if c.toNat < 32 then ['\\', 'u', '0', '0', hexDigit (c.toNat / 16), hexDigit c.toNat]
  else [c]

def quoted (s : String) : List Char := '"' :: s.toList.flatMap escape ++ ['"']

def Number.chars : Number → List Char
  | .integer n => n.repr.toList
  | .double x => (Decimal.Form.document.render x).toList

mutual

def Value.chars : Value → List Char
  | .null => "null".toList
  | .boolean b => (if b then "true" else "false").toList
  | .number n => n.chars
  | .text s => quoted s
  | .array items => '[' :: itemChars items ++ [']']
  | .object fields => '\x7b' :: fieldChars fields ++ ['\x7d']

def itemChars : List Value → List Char
  | [] => []
  | [item] => item.chars
  | item :: rest => item.chars ++ ',' :: itemChars rest

def fieldChars : List (String × Value) → List Char
  | [] => []
  | [(key, value)] => quoted key ++ ':' :: value.chars
  | (key, value) :: rest => quoted key ++ ':' :: value.chars ++ ',' :: fieldChars rest

end

def Value.compact (value : Value) : String := String.ofList value.chars

def newLine (level : Nat) : List Char := '\n' :: List.replicate (2 * level) ' '

mutual

def Value.lines (level : Nat) : Value → List Char
  | .array [] => ['[', ']']
  | .array items => '[' :: itemLines (level + 1) items ++ newLine level ++ [']']
  | .object [] => ['\x7b', '\x7d']
  | .object fields => '\x7b' :: fieldLines (level + 1) fields ++ newLine level ++ ['\x7d']
  | .null => "null".toList
  | .boolean b => (if b then "true" else "false").toList
  | .number n => n.chars
  | .text s => quoted s

def itemLines (level : Nat) : List Value → List Char
  | [] => []
  | [item] => newLine level ++ item.lines level
  | item :: rest => newLine level ++ item.lines level ++ ',' :: itemLines level rest

def fieldLines (level : Nat) : List (String × Value) → List Char
  | [] => []
  | [(key, value)] => newLine level ++ quoted key ++ ':' :: ' ' :: value.lines level
  | (key, value) :: rest =>
    newLine level ++ quoted key ++ ':' :: ' ' :: value.lines level ++ ',' :: fieldLines level rest

end

def Value.pretty (value : Value) : String := String.ofList (value.lines 0)

end Screener.Json
