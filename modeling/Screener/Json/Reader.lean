import Screener.Json.Value
import Screener.Decimal.Reading

/-! Reading documents, strictly: no comments, no trailing commas, no bare words, no number too large for
a double, no lone half of a surrogate pair. A reader takes the next piece off the text and hands on the
rest. -/
namespace Screener.Json

abbrev Reader (α : Type) := List Char → Option (α × List Char)

def isSpace (c : Char) : Bool := c = ' ' || c = '\t' || c = '\n' || c = '\r'

def skipSpace (cs : List Char) : List Char := cs.dropWhile isSpace

def expect : List Char → List Char → Option (List Char)
  | [], rest => some rest
  | w :: word, c :: rest => if w = c then expect word rest else none
  | _ :: _, [] => none

def hexValue (c : Char) : Option Nat :=
  if '0' ≤ c ∧ c ≤ '9' then some (c.toNat - 48)
  else if 'a' ≤ c ∧ c ≤ 'f' then some (c.toNat - 87)
  else if 'A' ≤ c ∧ c ≤ 'F' then some (c.toNat - 55)
  else none

def unitOf (a b c d : Char) : Option Nat := do
  return ((← hexValue a) * 16 + (← hexValue b)) * 256 + (← hexValue c) * 16 + (← hexValue d)

def isHigh (unit : Nat) : Bool := 0xD800 ≤ unit && unit < 0xDC00

def isLow (unit : Nat) : Bool := 0xDC00 ≤ unit && unit < 0xE000

def pairChar (high low : Nat) : Char :=
  Char.ofNat (0x10000 + (high - 0xD800) * 0x400 + (low - 0xDC00))

def escaped (c : Char) : Option Char :=
  if c = '"' ∨ c = '\\' ∨ c = '/' then some c
  else if c = 'b' then some (Char.ofNat 8)
  else if c = 'f' then some (Char.ofNat 12)
  else if c = 'n' then some '\n'
  else if c = 'r' then some '\r'
  else if c = 't' then some '\t'
  else none

def before (c : Char) (tail : Option (List Char × List Char)) : Option (List Char × List Char) :=
  tail.map fun (cs, rest) => (c :: cs, rest)

def quotedTail : Reader (List Char)
  | '"' :: rest => some ([], rest)
  | '\\' :: 'u' :: a :: b :: c :: d :: rest =>
    match unitOf a b c d with
    | none => none
    | some unit =>
      if isLow unit then none
      else if isHigh unit then
        match rest with
        | '\\' :: 'u' :: e :: f :: g :: h :: more =>
          match unitOf e f g h with
          | some low => if isLow low then before (pairChar unit low) (quotedTail more) else none
          | none => none
        | _ => none
      else before (Char.ofNat unit) (quotedTail rest)
  | '\\' :: c :: rest => (escaped c).bind fun x => before x (quotedTail rest)
  | c :: rest => if c.toNat < 32 ∨ c = '\\' then none else before c (quotedTail rest)
  | [] => none

def quotedText : Reader String
  | '"' :: rest => (quotedTail rest).map fun (cs, rest) => (String.ofList cs, rest)
  | _ => none

def wordLimit : Nat := Nat.pow 2 64

structure Gathered where
  significand : Nat
  exponent : Int

/-- Digits before the point: those that no longer fit the word count as zeros. -/
def gatherWhole : Nat → List Char → Gathered
  | n, [] => ⟨n, 0⟩
  | n, c :: rest =>
    let next := 10 * n + Decimal.digitValue c
    if next < wordLimit then gatherWhole next rest else ⟨n, (rest.length + 1 : Nat)⟩

/-- Digits after the point: those from the first that no longer fits on are left out. -/
def gatherFraction : Gathered → List Char → Gathered
  | g, [] => g
  | g, c :: rest =>
    let next := 10 * g.significand + Decimal.digitValue c
    if next < wordLimit then gatherFraction ⟨next, g.exponent - 1⟩ rest else g

def mostTens : Nat := 308

def powerOfTen (n : Nat) : Float := Float.ofScientific 1 false n

def dividedDown : Nat → Float → Nat → Float
  | 0, x, _ => x
  | fuel + 1, x, tens =>
    if tens ≤ mostTens then x / powerOfTen tens
    else if x == 0.0 then x
    else dividedDown fuel (x / powerOfTen mostTens) (tens - mostTens)

def scaled (g : Gathered) : Option Float :=
  let x := Float.ofNat g.significand
  if 0 ≤ g.exponent then
    if g.exponent.toNat ≤ mostTens then
      let y := x * powerOfTen g.exponent.toNat
      if y.isInf then none else some y
    else if g.significand = 0 then some x
    else none
  else some (dividedDown 4 x (-g.exponent).toNat)

def exponentLimit : Nat := Nat.pow 2 31

def exponentPart : Reader (Option Int)
  | c :: rest =>
    if c = 'e' ∨ c = 'E' then
      let (negative, rest) := Decimal.signOf rest
      let digits := rest.takeWhile Char.isDigit
      if digits.isEmpty then none
      else
        let n : Int := Decimal.whole digits
        some (some (if negative then -n else n), rest.dropWhile Char.isDigit)
    else some (none, c :: rest)
  | [] => some (none, [])

def fractionPart : Reader (Option (List Char))
  | '.' :: rest =>
    let digits := rest.takeWhile Char.isDigit
    if digits.isEmpty then none else some (some digits, rest.dropWhile Char.isDigit)
  | rest => some (none, rest)

def wholePart : Reader (List Char)
  | '0' :: c :: rest => if c.isDigit then none else some (['0'], c :: rest)
  | rest =>
    let digits := rest.takeWhile Char.isDigit
    if digits.isEmpty then none else some (digits, rest.dropWhile Char.isDigit)

def doubleOf (whole : Gathered) (fraction : Option (List Char)) (power : Option Int) : Option Float :=
  let g := match fraction with
    | some digits => gatherFraction whole digits
    | none => whole
  match power with
  | none => scaled g
  | some n =>
    if exponentLimit ≤ n.natAbs then
      if g.significand ≠ 0 ∧ 0 ≤ n then none else some 0.0
    else scaled ⟨g.significand, g.exponent + n⟩

def numberOf (negative : Bool) (digits : List Char) (fraction : Option (List Char))
    (power : Option Int) : Option Number :=
  let whole := gatherWhole 0 digits
  let signed (x : Float) : Float := if negative then -x else x
  if fraction.isNone && power.isNone && whole.exponent == 0 then
    if !negative then some (.integer whole.significand)
    else if whole.significand = 0 ∨ Nat.pow 2 63 < whole.significand then
      some (.double (-Float.ofNat whole.significand))
    else some (.integer (-whole.significand))
  else (doubleOf whole fraction power).map fun x => .double (signed x)

def number : Reader Number := fun cs => do
  let (negative, rest) := match cs with
    | '-' :: rest => (true, rest)
    | rest => (false, rest)
  let (digits, rest) ← wholePart rest
  let (fraction, rest) ← fractionPart rest
  let (power, rest) ← exponentPart rest
  return (← numberOf negative digits fraction power, rest)

/-- Items with commas between them, up to a closing bracket. Each takes a character at least, so the
length of the text is fuel enough. -/
def separated {α : Type} (item : Reader α) (close : Char) : Nat → Reader (List α)
  | 0, _ => none
  | fuel + 1, cs => do
    let (x, rest) ← item cs
    match skipSpace rest with
    | ',' :: rest => do
      let (xs, rest) ← separated item close fuel rest
      return (x :: xs, rest)
    | c :: rest => if c = close then some ([x], rest) else none
    | [] => none

def bracketed {α : Type} (item : Reader α) (close : Char) : Reader (List α) := fun cs =>
  match skipSpace cs with
  | [] => none
  | c :: rest => if c = close then some ([], rest) else separated item close cs.length (c :: rest)

def field (value : Reader Value) : Reader (String × Value) := fun cs => do
  let (key, rest) ← quotedText (skipSpace cs)
  match skipSpace rest with
  | ':' :: rest => do
    let (v, rest) ← value rest
    return ((key, v), rest)
  | _ => none

def mostOpen : Nat := 127

def value : Nat → Reader Value
  | 0, cs => opened none none (skipSpace cs)
  | room + 1, cs =>
    opened (some (bracketed (value room) ']')) (some (bracketed (field (value room)) '\x7d')) (skipSpace cs)
where
  opened (items : Option (Reader (List Value))) (fields : Option (Reader Fields)) : Reader Value
    | [] => none
    | c :: rest =>
      if c = '[' then items.bind fun read => (read rest).map fun (xs, rest) => (.array xs, rest)
      else if c = '\x7b' then fields.bind fun read => (read rest).map fun (xs, rest) => (.object xs, rest)
      else if c = '"' then (quotedText (c :: rest)).map fun (s, rest) => (.text s, rest)
      else if c = 'n' then (expect "ull".toList rest).map fun rest => (.null, rest)
      else if c = 't' then (expect "rue".toList rest).map fun rest => (.boolean true, rest)
      else if c = 'f' then (expect "alse".toList rest).map fun rest => (.boolean false, rest)
      else (number (c :: rest)).map fun (n, rest) => (.number n, rest)

def read (text : String) : Option Value :=
  match value mostOpen text.toList with
  | some (v, rest) => if (skipSpace rest).isEmpty then some v else none
  | none => none

end Screener.Json
