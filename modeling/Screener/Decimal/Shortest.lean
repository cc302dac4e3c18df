import Screener.Decimal.Binary

/-! The fewest decimal digits that read back to a double. A double stands for every real that rounds
to it; the coarsest decimal grid with a point among those reals gives the digits. Of two points the
nearer one is taken, and the output format says which way an exact tie goes. -/
namespace Screener.Decimal

inductive Tie where
  | even
  | up
  deriving Repr, DecidableEq

structure Scientific where
  coefficient : Nat
  exponent : Int
  deriving Repr, DecidableEq

structure Quotient where
  num : Nat
  den : Nat

def Quotient.ofPowers (two ten : Int) : Quotient :=
  ⟨Nat.pow 2 two.toNat * Nat.pow 10 ten.toNat, Nat.pow 2 (-two).toNat * Nat.pow 10 (-ten).toNat⟩

def tensUntil : Nat → Nat → Nat → Nat
  | 0, _, _ => 0
  | fuel + 1, num, den => if den ≤ num then 0 else tensUntil fuel (num * 10) den + 1

def Quotient.magnitude (q : Quotient) : Int :=
  if q.den ≤ q.num then (Nat.toDigits 10 (q.num / q.den)).length - 1
  else -(tensUntil (q.den.log2 + 1) q.num q.den : Int)

/-- The point nearest to a double on the grid of the multiples of `10 ^ grid`, if the grid has one among
the reals that round to the double. The reach on either side is counted in quarters of the double's unit;
it is one quarter below a power of two, where the doubles lie twice as close. -/
def gridPoint (tie : Tie) (significand : Nat) (exponent grid : Int) : Option Nat :=
  let step := Quotient.ofPowers (exponent - 2) (-grid)
  let reach := if significand = leadingBit ∧ leastExponent < exponent then 1 else 2
  let low := (4 * significand - reach) * step.num
  let exact := 4 * significand * step.num
  let high := (4 * significand + 2) * step.num
  let within (point : Nat) : Bool :=
    if significand % 2 = 0 then low ≤ point * step.den && point * step.den ≤ high
    else low < point * step.den && point * step.den < high
  let floor := exact / step.den
  let above := floor + 1
  let toFloor := exact - floor * step.den
  let toAbove := above * step.den - exact
  let floorFirst := toFloor < toAbove || (toFloor == toAbove && tie == .even && floor % 2 == 0)
  let (first, second) := if floorFirst then (floor, above) else (above, floor)
  if within first then some first else if within second then some second else none

def Scientific.strip : Nat → Scientific → Scientific
  | 0, d => d
  | fuel + 1, d =>
    if d.coefficient ≠ 0 ∧ d.coefficient % 10 = 0 then
      Scientific.strip fuel ⟨d.coefficient / 10, d.exponent + 1⟩
    else d

def mostDigits : Nat := 17

/-- The shortest decimal for the positive double `significand * 2 ^ exponent`. -/
def shortest (tie : Tie) (significand : Nat) (exponent : Int) : Scientific :=
  let value := Quotient.ofPowers exponent 0
  let magnitude := Quotient.magnitude ⟨significand * value.num, value.den⟩
  let found := (List.range mostDigits).findSome? fun (extra : Nat) =>
    let grid := magnitude - extra
    (gridPoint tie significand exponent grid).map fun point => Scientific.mk point grid
  (found.getD ⟨0, 0⟩).strip mostDigits

end Screener.Decimal
