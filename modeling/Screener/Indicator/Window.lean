import Screener.Indicator.Basic

/-! Indicators that look at the last few values only: the plain and the weighted mean, the deviation, the
bands around the mean. Each window is computed afresh, so a gap touches no window it does not lie in. -/
namespace Screener.Indicator
open Arithmetic
variable {α : Type}

/-- A point for each window of `period` values; `early` where there are not so many yet. -/
def trailing (period : Nat) (early : Point α) (point : List α → Point α) (values : List α) : Series α :=
  (List.range values.length).map fun i =>
    if period = 0 ∨ i + 1 < period then early
    else point ((values.drop (i + 1 - period)).take period)

@[simp] theorem length_trailing (period : Nat) (early : Point α) (point : List α → Point α)
    (values : List α) : (trailing period early point values).length = values.length := by
  simp [trailing]

section
variable [Arithmetic α]

def unavailable : Point α := ⟨false, .single gap⟩

def finitePoint (x : α) : Point α := ⟨isFinite x, .single x⟩

def smaSeries (period : Nat) (values : List α) : Series α :=
  if period = 0 then []
  else
    trailing period ⟨false, .single zero⟩
      (fun window => ⟨true, .single (sum window / ofNat period)⟩) values

def weightedMean (window : List α) : α :=
  let n : α := ofNat window.length
  let weighted := sum (window.zipIdx.map fun (price, i) => price * ofNat (i + 1))
  weighted / (n * (n + one) / ofNat 2)

def wmaSeries (period : Nat) (values : List α) : Series α :=
  trailing period unavailable (fun window => finitePoint (weightedMean window)) values

def mean (window : List α) : α := sum window / ofNat window.length

def variance (window : List α) : α :=
  let m := mean window
  sum (window.map fun v => (v - m) * (v - m)) / ofNat window.length

end

section
variable [RootArithmetic α]

def deviation (window : List α) : α := RootArithmetic.sqrt (variance window)

def stddevSeries (period : Nat) (values : List α) : Series α :=
  trailing period unavailable (fun window => finitePoint (deviation window)) values

def bandsPoint (hundredths : Nat) (window : List α) : Point α :=
  let middle := mean window
  let sd := deviation window
  let band := bandWidth hundredths * sd
  ⟨isFinite middle && isFinite sd, .bands (middle + band) middle (middle - band)⟩

def bollingerSeries (period hundredths : Nat) (values : List α) : Series α :=
  trailing period ⟨false, .bands gap gap gap⟩ (bandsPoint hundredths) values

end

end Screener.Indicator
