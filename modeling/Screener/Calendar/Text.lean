import Screener.Calendar.Timestamp
import Screener.Text.Blank
import Screener.Decimal.Reading

/-! Points in time as text: `YYYY-MM-DD`, alone or with `HH:MM` or `HH:MM:SS` behind blanks or a `T`.
Years beyond four digits carry a sign; midnight is written as the bare day. -/
namespace Screener.Calendar
open Screener.Text

def count (most : Nat) (cs : List Char) : Option (Nat × List Char) :=
  let cs := skipBlanks cs
  let digits := (cs.take most).takeWhile Char.isDigit
  if digits.isEmpty then none else some (Decimal.whole digits, cs.drop digits.length)

def unbounded (cs : List Char) : Option (Nat × List Char) :=
  let digits := cs.takeWhile Char.isDigit
  if digits.isEmpty then none else some (Decimal.whole digits, cs.drop digits.length)

def yearOf (cs : List Char) : Option (Int × List Char) :=
  match skipBlanks cs with
  | '-' :: rest => (unbounded rest).map fun (n, rest) => (-n, rest)
  | '+' :: rest => (unbounded rest).map fun (n, rest) => (n, rest)
  | rest => (count 4 rest).map fun (n, rest) => (n, rest)

def after (mark : Char) : List Char → Option (List Char)
  | [] => none
  | c :: rest => if c = mark then some rest else none

def dateOf (cs : List Char) : Option (Date × List Char) := do
  let (year, rest) ← yearOf cs
  let (month, rest) ← count 2 (← after '-' rest)
  let (day, rest) ← count 2 (← after '-' rest)
  return (← Date.of? year month day, rest)

def clockOf (cs : List Char) : Option Clock := do
  let (hour, rest) ← count 2 cs
  let (minute, rest) ← count 2 (← after ':' rest)
  if rest.isEmpty then Clock.of? hour minute 0
  else
    let (second, rest) ← count 2 (← after ':' rest)
    if rest.isEmpty then Clock.of? hour minute second else none

def bareDate? (text : String) : Option Date := do
  let (date, rest) ← dateOf (trimChars text.toList)
  if rest.isEmpty then some date else none

def Timestamp.ofText? (text : String) : Option Timestamp := do
  let (date, rest) ← dateOf (trimChars text.toList)
  match rest with
  | [] => some ⟨date, .midnight⟩
  | 'T' :: rest => (clockOf rest).map (⟨date, ·⟩)
  | rest => (clockOf rest).map (⟨date, ·⟩)

/-- The end of a range that a text names; a bare day is its last second. -/
def Timestamp.endOfText? (text : String) : Option Timestamp :=
  match bareDate? text with
  | some date => some ⟨date, .endOfDay⟩
  | none => Timestamp.ofText? text

def padded (width n : Nat) : List Char :=
  let digits := Nat.toDigits 10 n
  List.replicate (width - digits.length) '0' ++ digits

def Date.chars (d : Date) : List Char :=
  let sign := if d.year < 0 then ['-'] else if 9999 < d.year then ['+'] else []
  sign ++ padded 4 d.year.natAbs ++ '-' :: padded 2 d.month ++ '-' :: padded 2 d.day

def Clock.chars (c : Clock) : List Char :=
  padded 2 c.hour ++ ':' :: padded 2 c.minute ++ ':' :: padded 2 c.second

def Timestamp.chars (t : Timestamp) : List Char :=
  if t.clock = .midnight then t.date.chars else t.date.chars ++ ' ' :: t.clock.chars

def Timestamp.text (t : Timestamp) : String := String.ofList t.chars

end Screener.Calendar
