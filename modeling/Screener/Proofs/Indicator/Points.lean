import Screener.Proofs.Indicator.WarmUp

/-! What stands at a position of a series, said without the series. In an indicator that goes on counting it is a fold
of the values up to the position. -/
namespace Screener.Indicator
open Arithmetic
variable {α : Type} [Arithmetic α]

def emaOf (period : Nat) (values : List α) : α :=
  (values.drop period).foldl (fun mean price => mean + ofNat 2 / (ofNat period + one) * (price - mean))
    (sum (values.take period) / ofNat period)

def wilderOf (period : Nat) (xs : List α) : α :=
  (xs.drop period).foldl (fun average x => (average * (ofNat period - one) + x) / ofNat period)
    ((xs.take period).foldl (· + ·) zero / ofNat period)

def averagesAt (period : Nat) (values : List α) (i : Nat) : Move α where
  gain := wilderOf period (((moves values).take i).map Move.gain)
  loss := wilderOf period (((moves values).take i).map Move.loss)

@[simp] theorem length_pointsFrom {β : Type} (first : Nat) (outputs : List (Output β)) :
    (pointsFrom first outputs).length = outputs.length := by
  simp [pointsFrom]

private theorem getElem?_smoothed (weight mean : α) (values : List α) {k : Nat} (inside : k ≤ values.length) :
    (mean :: smoothed weight mean values)[k]? =
      some ((values.take k).foldl (fun mean price => mean + weight * (price - mean)) mean) := by
  induction k generalizing mean values with
  | zero => rfl
  | succ k ih =>
    cases values with
    | nil => simp at inside
    | cons price rest => exact ih (mean + weight * (price - mean)) rest (Nat.le_of_succ_le_succ inside)

private theorem getElem?_blended (period : Nat) (average : Move α) (further : List (Move α)) {k : Nat}
    (inside : k ≤ further.length) :
    (average :: blended period average further)[k]? = some ((further.take k).foldl (Move.blend period) average) := by
  induction k generalizing average further with
  | zero => rfl
  | succ k ih =>
    cases further with
    | nil => simp at inside
    | cons move rest => exact ih (average.blend period move) rest (Nat.le_of_succ_le_succ inside)

theorem getElem?_emaValues {period : Nat} (used : 0 < period) (values : List α) (i : Nat) :
    (emaValues period values)[i]? = values[i]?.map fun _ =>
      if i + 1 < period then zero else emaOf period (values.take (i + 1)) := by
  by_cases inside : i < values.length
  · rw [List.getElem?_eq_getElem inside, Option.map_some]
    by_cases early : i + 1 < period
    · rw [if_pos early, emaValues]
      split
      · simp [inside]
      · rw [List.getElem?_append_left (by simp; omega), List.getElem?_replicate, if_pos (by omega)]
    · have seeded : period ≤ i + 1 := Nat.not_lt.1 early
      rw [if_neg early, emaValues, if_neg (by omega), List.getElem?_append_right (by simp; omega),
        List.length_replicate, getElem?_smoothed _ _ _ (by simp; omega), emaOf, List.drop_take, List.take_take,
        Nat.min_eq_left seeded, (by omega : i - (period - 1) = i + 1 - period)]
  · have outside : values.length ≤ i := Nat.not_lt.1 inside
    rw [List.getElem?_eq_none (by simpa using outside), List.getElem?_eq_none outside, Option.map_none]

theorem getElem?_macdLine {fast slow i : Nat} (used : 0 < fast ∧ 0 < slow) (ready : max fast slow ≤ i + 1)
    (values : List α) :
    (macdLine fast slow values)[i]? = values[i]?.map fun _ =>
      emaOf fast (values.take (i + 1)) - emaOf slow (values.take (i + 1)) := by
  rw [macdLine, List.getElem?_zipWith, getElem?_emaValues used.1, getElem?_emaValues used.2, if_neg (by omega),
    if_neg (by omega)]
  cases values[i]? <;> rfl

@[simp] theorem length_macdSignal (fast slow signal : Nat) (values : List α) :
    (macdSignal fast slow signal values).length = values.length := by
  unfold macdSignal
  simp
  omega

theorem getElem?_macdSignal {fast slow signal i : Nat} (used : 0 < signal)
    (ready : macdStart fast slow + signal ≤ i + 1) (values : List α) :
    (macdSignal fast slow signal values)[i]? = values[i]?.map fun _ =>
      emaOf signal (((macdLine fast slow values).take (i + 1)).drop (macdStart fast slow)) := by
  by_cases inside : i < values.length
  · have start : min (macdStart fast slow) (macdLine fast slow values).length = macdStart fast slow := by
      rw [length_macdLine]
      omega
    have later : i - macdStart fast slow < ((macdLine fast slow values).drop (macdStart fast slow)).length := by
      simp
      omega
    rw [macdSignal, start, List.getElem?_append_right (by simp; omega), List.length_replicate, getElem?_emaValues used,
      List.getElem?_eq_getElem later, if_neg (by omega), List.getElem?_eq_getElem inside, List.drop_take,
      Option.map_some, Option.map_some,
      (by omega : i - macdStart fast slow + 1 = i + 1 - macdStart fast slow)]
  · have outside : values.length ≤ i := Nat.not_lt.1 inside
    rw [List.getElem?_eq_none (by simpa using outside), List.getElem?_eq_none outside, Option.map_none]

theorem getElem?_moves (values : List α) (k : Nat) :
    (moves values)[k]? = values[k]?.bind fun a => values[k + 1]?.map fun b => Move.ofChange (b - a) := by
  induction values generalizing k with
  | nil => simp [moves]
  | cons a rest ih =>
    cases rest with
    | nil => simp [moves]
    | cons b rest =>
      cases k with
      | zero => simp [moves]
      | succ k => simpa [moves] using ih k

@[simp] theorem length_rsiSeries (period : Nat) (values : List α) :
    (rsiSeries period values).length = values.length := by
  unfold rsiSeries
  simp only
  split
  · simp
  · simp [length_moves]
    omega

private theorem seedMove_eq (period : Nat) (first : List (Move α)) :
    seedMove period first =
      ⟨(first.map Move.gain).foldl (· + ·) zero / ofNat period, (first.map Move.loss).foldl (· + ·) zero / ofNat period⟩ := by
  have totals (start : Move α) :
      first.foldl (fun t m => Move.mk (t.gain + m.gain) (t.loss + m.loss)) start =
        ⟨(first.map Move.gain).foldl (· + ·) start.gain, (first.map Move.loss).foldl (· + ·) start.loss⟩ := by
    induction first generalizing start with
    | nil => rfl
    | cons move rest ih => exact ih _
  rw [seedMove, totals]

private theorem foldl_blend (period : Nat) (average : Move α) (further : List (Move α)) :
    further.foldl (Move.blend period) average =
      ⟨(further.map Move.gain).foldl (fun average x => (average * (ofNat period - one) + x) / ofNat period) average.gain,
        (further.map Move.loss).foldl (fun average x => (average * (ofNat period - one) + x) / ofNat period)
          average.loss⟩ := by
  induction further generalizing average with
  | nil => rfl
  | cons move rest ih => exact ih _

theorem getElem?_rsiSeries {period : Nat} (used : 0 < period) (values : List α) (i : Nat) :
    (rsiSeries period values)[i]? = values[i]?.map fun _ =>
      if i < period then ⟨false, .single gap⟩
      else ⟨true, .single (strength (averagesAt period values i))⟩ := by
  by_cases inside : i < values.length
  · rw [List.getElem?_eq_getElem inside, Option.map_some]
    by_cases early : i < period
    · rw [if_pos early, getElem?_rsiSeries_early values early, List.getElem?_eq_getElem inside, Option.map_some]
    · have seeded : period ≤ i := Nat.not_lt.1 early
      rw [if_neg early, rsiSeries]
      simp only
      rw [if_neg (by omega), List.getElem?_append_right (by simp; omega), List.length_replicate, List.getElem?_map,
        getElem?_blended _ _ _ (by simp [length_moves]; omega), foldl_blend, seedMove_eq]
      simp only [averagesAt, wilderOf, List.map_take, List.map_drop, List.drop_take, List.take_take, Nat.min_eq_left seeded,
        Option.map_some]
  · have outside : values.length ≤ i := Nat.not_lt.1 inside
    rw [List.getElem?_eq_none (by simpa using outside), List.getElem?_eq_none outside, Option.map_none]

end Screener.Indicator
