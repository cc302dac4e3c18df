import Screener.Decimal.Shortest

/-! How a double is written. One record holds the decisions of an output format: where writing by
position ends, whether a whole number keeps a point, which way a tie goes. -/
namespace Screener.Decimal

structure Form where
  /-- The least and the greatest power of ten of a leading digit written by position, if there are any. -/
  positional : Option (Int × Int)
  /-- Whole numbers written by position end in `.0`. -/
  pointed : Bool
  tie : Tie

/-- Numbers of a document: by position from `0.00001` up to sixteen whole digits, and always with a
point or an exponent. -/
def Form.document : Form := ⟨some (-5, 15), true, .even⟩

/-- Numbers in running text: always by position, without an empty fraction. -/
def Form.running : Form := ⟨none, false, .up⟩

def zeros (n : Nat) : List Char := List.replicate n '0'

def Form.place (form : Form) (digits : List Char) (exponent : Int) : List Char :=
  let fraction := (-exponent).toNat
  if fraction = 0 then digits ++ zeros exponent.toNat ++ (if form.pointed then ['.', '0'] else [])
  else if fraction < digits.length then
    let whole := digits.length - fraction
    digits.take whole ++ '.' :: digits.drop whole
  else '0' :: '.' :: zeros (fraction - digits.length) ++ digits

def exponential (digits : List Char) (magnitude : Int) : List Char :=
  let mantissa :=
    match digits with
    | first :: second :: rest => first :: '.' :: second :: rest
    | short => short
  mantissa ++ 'e' :: (if magnitude < 0 then '-' else '+') :: Nat.toDigits 10 magnitude.natAbs

def Form.positive (form : Form) (d : Scientific) : List Char :=
  let digits := Nat.toDigits 10 d.coefficient
  let magnitude := d.exponent + digits.length - 1
  match form.positional with
  | some (least, greatest) =>
    if least ≤ magnitude ∧ magnitude ≤ greatest then form.place digits d.exponent
    else exponential digits magnitude
  | none => form.place digits d.exponent

def Form.render (form : Form) (x : Float) : String :=
  match Binary.ofFloat x with
  | .undefined => "NaN"
  | .infinite negative => if negative then "-inf" else "inf"
  | .finite negative significand exponent =>
    let size :=
      if significand = 0 then form.place ['0'] 0
      else form.positive (shortest form.tie significand exponent)
    String.ofList ((if negative then ['-'] else []) ++ size)

end Screener.Decimal
