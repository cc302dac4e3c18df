/-! The arithmetic in which indicators are computed. They run on doubles; the same computations can be
read over the rationals, where they are exact and nothing is ever missing or infinite. -/
namespace Screener

class Arithmetic (α : Type) extends Add α, Sub α, Mul α, Div α, Neg α where
  ofNat : Nat → α
  /-- The sum of no numbers. -/
  nothing : α
  /-- Stands where there is no number. -/
  gap : α
  isGap : α → Bool
  isFinite : α → Bool
  less : α → α → Bool
  same : α → α → Bool

class RootArithmetic (α : Type) extends Arithmetic α where
  sqrt : α → α

namespace Arithmetic
variable {α : Type} [Arithmetic α]

def sum (xs : List α) : α := xs.foldl (· + ·) nothing

def zero : α := ofNat 0

def one : α := ofNat 1

def hundred : α := ofNat 100

end Arithmetic

instance : RootArithmetic Float where
  ofNat := Float.ofNat
  nothing := -0.0
  gap := 0.0 / 0.0
  isGap := Float.isNaN
  isFinite := Float.isFinite
  less a b := a < b
  same a b := a == b
  sqrt := Float.sqrt

instance : Arithmetic Rat where
  ofNat n := n
  nothing := 0
  gap := 0
  isGap _ := false
  isFinite _ := true
  less a b := a < b
  same a b := a == b

/-- The greater of two doubles, the second one if they are equal. One that is no number gives way to the
other. -/
def greater (a b : Float) : Float := if a.isNaN || a ≤ b then b else a

def lesser (a b : Float) : Float := if a.isNaN || b ≤ a then b else a

end Screener
