import Screener.Indicator.Basic

/-! Indicators in which every value goes on counting: the exponential mean, the gap between two of them
with its own mean, and the index of relative strength. A value that is no number spoils all later points. -/
namespace Screener.Indicator
open Arithmetic
variable {α : Type} [Arithmetic α]

def smoothed (weight : α) : α → List α → List α
  | _, [] => []
  | mean, price :: rest =>
    let next := mean + weight * (price - mean)
    next :: smoothed weight next rest

/-- The exponential mean for each value: it starts at the plain mean of the first values and stands at
zero before that. -/
def emaValues (period : Nat) (values : List α) : List α :=
  if period = 0 ∨ values.length < period then values.map fun _ => zero
  else
    let weight := ofNat 2 / (ofNat period + one)
    let seed := sum (values.take period) / ofNat period
    List.replicate (period - 1) zero ++ seed :: smoothed weight seed (values.drop period)

@[simp] theorem length_smoothed (weight mean : α) (values : List α) :
    (smoothed weight mean values).length = values.length := by
  induction values generalizing mean with
  | nil => rfl
  | cons price rest ih => simp [smoothed, ih]

@[simp] theorem length_emaValues (period : Nat) (values : List α) :
    (emaValues period values).length = values.length := by
  unfold emaValues
  split
  · simp
  · simp
    omega

def pointsFrom (first : Nat) (output : List (Output α)) : Series α :=
  output.zipIdx.map fun (x, i) => ⟨first ≤ i, x⟩

def emaSeries (period : Nat) (values : List α) : Series α :=
  if period = 0 then [] else pointsFrom (period - 1) ((emaValues period values).map .single)

def macdLine (fast slow : Nat) (values : List α) : List α :=
  List.zipWith (· - ·) (emaValues fast values) (emaValues slow values)

def macdStart (fast slow : Nat) : Nat := max fast slow - 1

/-- The exponential mean of the line from where it begins; zero before that. -/
def macdSignal (fast slow signal : Nat) (values : List α) : List α :=
  let line := macdLine fast slow values
  let start := macdStart fast slow
  List.replicate (min start line.length) zero ++ emaValues signal (line.drop start)

def macdSeries (fast slow signal : Nat) (values : List α) : Series α :=
  if fast = 0 ∨ slow = 0 ∨ signal = 0 then []
  else
    pointsFrom (Size.add (macdStart fast slow) (signal - 1))
      (List.zipWith (fun line signal => .macd line signal (line - signal))
        (macdLine fast slow values) (macdSignal fast slow signal values))

/-- A gain and a loss, one of which is zero. A change that is no number counts as a gain. -/
structure Move (α : Type) where
  gain : α
  loss : α
  deriving Repr

def Move.ofChange (change : α) : Move α :=
  if less change zero then ⟨zero, -change⟩
  else if less zero change || isGap change then ⟨change, zero⟩
  else ⟨zero, zero⟩

def moves : List α → List (Move α)
  | a :: b :: rest => Move.ofChange (b - a) :: moves (b :: rest)
  | _ => []

theorem length_moves (values : List α) : (moves values).length = values.length - 1 := by
  induction values with
  | nil => rfl
  | cons a rest ih =>
    cases rest with
    | nil => rfl
    | cons b rest => simpa [moves] using ih

/-- The strength of average gains against average losses, from 0 to 100. -/
def strength (average : Move α) : α :=
  if isGap average.gain || isGap average.loss then gap
  else if same average.loss zero then hundred
  else hundred - hundred / (one + average.gain / average.loss)

def seedMove (period : Nat) (first : List (Move α)) : Move α :=
  let total := first.foldl (fun t m => Move.mk (t.gain + m.gain) (t.loss + m.loss)) ⟨zero, zero⟩
  ⟨total.gain / ofNat period, total.loss / ofNat period⟩

def Move.blend (period : Nat) (average move : Move α) : Move α :=
  let n : α := ofNat period
  ⟨(average.gain * (n - one) + move.gain) / n, (average.loss * (n - one) + move.loss) / n⟩

def blended (period : Nat) : Move α → List (Move α) → List (Move α)
  | _, [] => []
  | average, move :: rest =>
    let next := average.blend period move
    next :: blended period next rest

@[simp] theorem length_blended (period : Nat) (average : Move α) (further : List (Move α)) :
    (blended period average further).length = further.length := by
  induction further generalizing average with
  | nil => rfl
  | cons move rest ih => simp [blended, ih]

def rsiSeries (period : Nat) (values : List α) : Series α :=
  let unavailable : Point α := ⟨false, .single gap⟩
  if period = 0 ∨ values.length ≤ period then values.map fun _ => unavailable
  else
    let all := moves values
    let seed := seedMove period (all.take period)
    List.replicate period unavailable ++
      (seed :: blended period seed (all.drop period)).map fun average => ⟨true, .single (strength average)⟩

def changePoint (base current : α) : Point α :=
  if same base zero || !isFinite base then ⟨false, .single gap⟩
  else
    let change := (current / base - one) * hundred
    ⟨isFinite change, .single change⟩

def rocSeries (period : Nat) (values : List α) : Series α :=
  if period = 0 then values.map fun _ => ⟨false, .single gap⟩
  else
    List.replicate (min period values.length) ⟨false, .single gap⟩ ++
      List.zipWith changePoint values (values.drop period)

end Screener.Indicator
