/-! Numbers in the cells of a table: a sign, digits with a point anywhere among them, a power of ten, or
the words for infinity and for no number. The nearest double is taken. -/
namespace Screener.Decimal

def digitValue (c : Char) : Nat := c.toNat - 48

def wholeFrom (start : Nat) (digits : List Char) : Nat :=
  digits.foldl (fun n c => 10 * n + digitValue c) start

def whole (digits : List Char) : Nat := wholeFrom 0 digits

def signOf : List Char → Bool × List Char
  | '-' :: rest => (true, rest)
  | '+' :: rest => (false, rest)
  | rest => (false, rest)

/-- Digits with an exponent of this size or more are nothing or infinite. -/
def exponentBound : Nat := 100000

def nearest (coefficient : Nat) (exponent : Int) : Float :=
  if coefficient = 0 then 0.0
  else
    let length : Int := (Nat.toDigits 10 coefficient).length
    if length + exponent < -400 then 0.0
    else if 400 < length + exponent then 1.0 / 0.0
    else Float.ofScientific coefficient (exponent < 0) exponent.natAbs

def exponentOf : List Char → Option Int
  | [] => some 0
  | c :: rest =>
    if c = 'e' ∨ c = 'E' then
      let (negative, digits) := signOf rest
      if digits.isEmpty || !digits.all Char.isDigit then none
      else
        let size := min (whole digits) exponentBound
        some (if negative then -size else size)
    else none

def unsigned? (cs : List Char) : Option Float :=
  let word := cs.map Char.toLower
  if word = ['i', 'n', 'f'] ∨ word = ['i', 'n', 'f', 'i', 'n', 'i', 't', 'y'] then some (1.0 / 0.0)
  else if word = ['n', 'a', 'n'] then some (0.0 / 0.0)
  else
    let before := cs.takeWhile Char.isDigit
    let rest := cs.dropWhile Char.isDigit
    let (after, rest) :=
      match rest with
      | '.' :: more => (more.takeWhile Char.isDigit, more.dropWhile Char.isDigit)
      | other => ([], other)
    if before.isEmpty && after.isEmpty then none
    else (exponentOf rest).map fun power => nearest (whole (before ++ after)) (power - after.length)

def number? (text : String) : Option Float :=
  let (negative, rest) := signOf text.toList
  (unsigned? rest).map fun x => if negative then -x else x

end Screener.Decimal
