/-! A double taken apart into sign, whole significand and binary exponent. -/
namespace Screener.Decimal

/-- What a double stands for: plus or minus `significand * 2 ^ exponent`, an infinity, or no number. -/
inductive Binary where
  | finite (negative : Bool) (significand : Nat) (exponent : Int)
  | infinite (negative : Bool)
  | undefined
  deriving Repr, DecidableEq

def leadingBit : Nat := Nat.pow 2 52

def leastExponent : Int := -1074

def Binary.ofFloat (x : Float) : Binary :=
  let bits := x.toBits.toNat
  let negative := bits / Nat.pow 2 63 == 1
  let biased := bits / leadingBit % Nat.pow 2 11
  let fraction := bits % leadingBit
  if biased = 2047 then
    if fraction = 0 then .infinite negative else .undefined
  else if biased = 0 then .finite negative fraction leastExponent
  else .finite negative (leadingBit + fraction) (leastExponent + (biased - 1 : Nat))

def nearestWhole (x : Float) : Nat :=
  match Binary.ofFloat x with
  | .finite _ significand exponent =>
    if 0 ≤ exponent then significand * Nat.pow 2 exponent.toNat
    else
      let unit := Nat.pow 2 (-exponent).toNat
      (2 * significand + unit) / (2 * unit)
  | _ => 0

def whole? (x : Float) : Option Nat :=
  match Binary.ofFloat x with
  | .finite negative significand exponent =>
    if negative && significand != 0 then none
    else if 0 ≤ exponent then some (significand * Nat.pow 2 exponent.toNat)
    else
      let unit := Nat.pow 2 (-exponent).toNat
      if significand % unit = 0 then some (significand / unit) else none
  | _ => none

end Screener.Decimal
