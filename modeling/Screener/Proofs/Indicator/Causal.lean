import Screener.Indicator.Memo

/-! Every indicator only looks back. Values that come later add points at the end of a series and change
none of the points before them, whatever the arithmetic is. -/
namespace Screener.Indicator
open Arithmetic
variable {α β γ : Type}

/-- The values that follow change nothing in what `f` gives for the values before them. -/
def Causal (f : List α → List β) : Prop := ∀ xs ys, (f (xs ++ ys)).take xs.length = f xs

namespace Causal

theorem nil {f : List α → List β} (causal : Causal f) : f [] = [] := by
  have none_yet := causal [] []
  simpa using none_yet.symm

theorem map {f : List α → List β} (causal : Causal f) (g : β → γ) : Causal fun xs => (f xs).map g := by
  intro xs ys
  simp only [← List.map_take]
  rw [causal]

theorem zipWith {δ : Type} {f : List α → List β} {g : List α → List γ} (op : β → γ → δ)
    (left : Causal f) (right : Causal g) : Causal fun xs => List.zipWith op (f xs) (g xs) := by
  intro xs ys
  simp only [List.take_zipWith]
  rw [left, right]

theorem guarded {f : List α → List β} (causal : Causal f) (idle : Prop) [Decidable idle] :
    Causal fun xs => if idle then [] else f xs := by
  intro xs ys
  by_cases h : idle
  · simp [h]
  · simpa only [h, if_false] using causal xs ys

private theorem getElem?_take {f : List α → List β} (causal : Causal f) (xs : List α) {i n : Nat} (before : i < n) :
    (f (xs.take n))[i]? = (f xs)[i]? := by
  by_cases inside : n ≤ xs.length
  · have first := causal (xs.take n) (xs.drop n)
    rw [List.take_append_drop, List.length_take_of_le inside] at first
    rw [← first, List.getElem?_take_of_lt before]
  · rw [List.take_of_length_le (by omega)]

theorem comp {f : List α → List β} {g : List β → List γ} (inner : Causal f) (outer : Causal g)
    (length : ∀ xs, (f xs).length = xs.length) : Causal fun xs => g (f xs) := by
  intro xs ys
  have grown : f xs ++ (f (xs ++ ys)).drop xs.length = f (xs ++ ys) := by
    rw [← inner xs ys, List.take_append_drop]
  simp only
  rw [← grown, ← length xs]
  exact outer _ _

end Causal

private theorem take_filler {n start : Nat} (early : n ≤ start) (filler : α) (behind : List α) :
    (List.replicate start filler ++ behind).take n = List.replicate n filler := by
  rw [List.take_append_of_le_length (by simpa using early), List.take_replicate, Nat.min_eq_left early]

namespace Causal

theorem ofWarmUp {f : List α → List β} (start : Nat) (filler : β)
    (early : ∀ xs, xs.length ≤ start → f xs = List.replicate xs.length filler)
    (filled : ∀ xs, start < xs.length → ∃ rest, f xs = List.replicate start filler ++ rest)
    (grown : ∀ xs ys, start < xs.length → (f (xs ++ ys)).take xs.length = f xs) : Causal f := by
  intro xs ys
  by_cases short : xs.length ≤ start
  · rw [early xs short]
    by_cases still : (xs ++ ys).length ≤ start
    · rw [early _ still, List.take_replicate, Nat.min_eq_left (by simp)]
    · obtain ⟨rest, warm⟩ := filled (xs ++ ys) (by omega)
      rw [warm, take_filler short]
  · exact grown xs ys (by omega)

theorem delayed {g : List α → List β} (causal : Causal g) (start : Nat) (filler : β) :
    Causal fun xs => List.replicate (min start xs.length) filler ++ g (xs.drop start) := by
  intro xs ys
  simp only
  by_cases late : xs.length ≤ start
  · have none_left : xs.drop start = [] := List.drop_eq_nil_of_le late
    rw [none_left, causal.nil, List.append_nil, take_filler (by simp; omega), Nat.min_eq_right late]
  · have enough : start ≤ xs.length := by omega
    rw [List.drop_append_of_le_length enough, List.take_append, List.take_of_length_le (by simp; omega)]
    congr 1
    · simp only [List.length_append]
      congr 1
      omega
    · have rest : xs.length - (List.replicate (min start (xs ++ ys).length) filler).length =
          (xs.drop start).length := by simp; omega
      rw [rest]
      exact causal _ _

end Causal

private theorem take_pointsFrom (first n : Nat) (outputs : List (Output α)) :
    (pointsFrom first outputs).take n = pointsFrom first (outputs.take n) := by
  apply List.ext_getElem?
  intro i
  by_cases inside : i < n
  · simp [pointsFrom, inside]
  · have none_left : (outputs.take n)[i]? = none := List.getElem?_take_eq_none (Nat.not_lt.1 inside)
    rw [List.getElem?_take_eq_none (Nat.not_lt.1 inside)]
    simp [pointsFrom, none_left]

theorem Causal.pointsFrom {f : List α → List (Output β)} (causal : Causal f) (first : Nat) :
    Causal fun xs => pointsFrom first (f xs) := by
  intro xs ys
  simp only [take_pointsFrom]
  rw [causal]

private theorem causal_trailing (period : Nat) (early : Point α) (point : List α → Point α) :
    Causal (trailing period early point) := by
  intro xs ys
  apply List.ext_getElem?
  intro i
  by_cases inside : i < xs.length
  · have longer : i < (xs ++ ys).length := by simp; omega
    simp only [trailing, List.getElem?_take, inside, longer, if_true, List.getElem?_map,
      List.getElem?_range, Option.map_some]
    split
    · rfl
    · rename_i enough
      rw [List.drop_append_of_le_length (by omega), List.take_append_of_le_length (by simp; omega)]
  · simp [inside]

section
variable [Arithmetic α]

private theorem smoothed_append (weight mean : α) (xs ys : List α) :
    ∃ later, smoothed weight mean (xs ++ ys) = smoothed weight mean xs ++ later := by
  induction xs generalizing mean with
  | nil => exact ⟨_, rfl⟩
  | cons price rest ih =>
    obtain ⟨later, same⟩ := ih (mean + weight * (price - mean))
    exact ⟨later, by simp only [List.cons_append, smoothed, same]⟩

private theorem causal_emaValues (period : Nat) : Causal (emaValues period : List α → List α) := by
  by_cases idle : period = 0
  · intro xs ys
    simp [emaValues, idle]
  · refine .ofWarmUp (period - 1) zero (fun xs short => ?_) (fun xs enough => ?_) fun xs ys enough => ?_
    · rw [emaValues, if_pos (by omega), List.map_const']
    · rw [emaValues, if_neg (by omega)]
      exact ⟨_, rfl⟩
    · have seeded : period ≤ xs.length := by omega
      have still : ¬(period = 0 ∨ (xs ++ ys).length < period) := by simp; omega
      rw [emaValues, emaValues, if_neg still, if_neg (by omega), List.take_append_of_le_length seeded,
        List.drop_append_of_le_length seeded]
      simp only
      obtain ⟨later, same⟩ := smoothed_append (ofNat 2 / (ofNat period + one))
        (Arithmetic.sum (xs.take period) / ofNat period) (xs.drop period) ys
      rw [same, ← List.cons_append, ← List.append_assoc, List.take_left' (by simp; omega)]

private theorem causal_macdLine (fast slow : Nat) : Causal (macdLine fast slow : List α → List α) :=
  (causal_emaValues fast).zipWith _ (causal_emaValues slow)

@[simp] theorem length_macdLine (fast slow : Nat) (values : List α) :
    (macdLine fast slow values).length = values.length := by
  simp [macdLine]

private theorem causal_macdSignal (fast slow signal : Nat) : Causal (macdSignal fast slow signal : List α → List α) :=
  (causal_macdLine fast slow).comp ((causal_emaValues signal).delayed (macdStart fast slow) zero)
    (length_macdLine fast slow)

private theorem causal_macdSeries (fast slow signal : Nat) : Causal (macdSeries fast slow signal : List α → Series α) :=
  (((causal_macdLine fast slow).zipWith (fun line signal => Output.macd line signal (line - signal))
    (causal_macdSignal fast slow signal)).pointsFrom _).guarded _

private theorem moves_append (xs ys : List α) : ∃ later, moves (xs ++ ys) = moves xs ++ later := by
  induction xs with
  | nil => exact ⟨_, rfl⟩
  | cons a rest ih =>
    cases rest with
    | nil => exact ⟨_, rfl⟩
    | cons b rest =>
      obtain ⟨later, same⟩ := ih
      exact ⟨later, by simpa only [List.cons_append, moves, List.cons.injEq, true_and] using same⟩

private theorem blended_append (period : Nat) (average : Move α) (xs ys : List (Move α)) :
    ∃ later, blended period average (xs ++ ys) = blended period average xs ++ later := by
  induction xs generalizing average with
  | nil => exact ⟨_, rfl⟩
  | cons move rest ih =>
    obtain ⟨later, same⟩ := ih (average.blend period move)
    exact ⟨later, by simp only [List.cons_append, blended, same]⟩

private theorem causal_rsiSeries (period : Nat) : Causal (rsiSeries period : List α → Series α) := by
  by_cases idle : period = 0
  · intro xs ys
    simp [rsiSeries, idle]
  · refine .ofWarmUp period ⟨false, .single gap⟩ (fun xs short => ?_) (fun xs enough => ?_) fun xs ys enough => ?_
    · rw [rsiSeries, if_pos (.inr short), List.map_const']
    · rw [rsiSeries, if_neg (by omega)]
      exact ⟨_, rfl⟩
    · have still : ¬(period = 0 ∨ (xs ++ ys).length ≤ period) := by simp; omega
      have seeded : period ≤ (moves xs).length := by rw [length_moves]; omega
      obtain ⟨more, longer⟩ := moves_append xs ys
      rw [rsiSeries, rsiSeries, if_neg still, if_neg (by omega), longer]
      simp only
      rw [List.take_append_of_le_length seeded, List.drop_append_of_le_length seeded]
      obtain ⟨later, same⟩ := blended_append period (seedMove period ((moves xs).take period))
        ((moves xs).drop period) more
      rw [same, ← List.cons_append, List.map_append, ← List.append_assoc,
        List.take_left' (by simp [length_moves]; omega)]

theorem length_rocSeries (period : Nat) (values : List α) :
    (rocSeries period values).length = values.length := by
  unfold rocSeries
  split
  · simp
  · simp
    omega

theorem getElem?_rocSeries (period : Nat) (used : period ≠ 0) (values : List α) (i : Nat) :
    (rocSeries period values)[i]? =
      if i < period then values[i]?.map fun _ => ⟨false, .single gap⟩
      else values[i]?.bind fun current => values[i - period]?.map fun base => changePoint base current := by
  by_cases inside : i < values.length
  · simp only [rocSeries, used, if_false, List.getElem?_append, List.length_replicate]
    by_cases early : i < period
    · have filled : i < min period values.length := by omega
      simp [early, inside, filled]
    · have shift : min period values.length = period := by omega
      have back : i - period < values.length := by omega
      have again : period + (i - period) = i := by omega
      simp [early, shift, List.getElem?_zipWith, inside, back, again]
  · have outside : values.length ≤ i := by omega
    rw [List.getElem?_eq_none (by rw [length_rocSeries]; exact outside), List.getElem?_eq_none outside]
    simp

private theorem causal_rocSeries (period : Nat) : Causal (rocSeries period : List α → Series α) := by
  intro xs ys
  by_cases idle : period = 0
  · simp [rocSeries, idle]
  · apply List.ext_getElem?
    intro i
    by_cases inside : i < xs.length
    · have back : i - period < xs.length := by omega
      simp [inside, back, getElem?_rocSeries, idle, List.getElem?_append_left]
    · rw [List.getElem?_take_eq_none (by omega), getElem?_rocSeries period idle,
        List.getElem?_eq_none (by omega)]
      simp

end

private theorem causal_series [RootArithmetic α] (which : Indicator) : Causal (series which : List α → Series α) := by
  cases which with
  | sma n => exact (causal_trailing n _ fun window => ⟨true, .single (sum window / ofNat n)⟩).guarded _
  | ema n => exact (((causal_emaValues n).map Output.single).pointsFrom (n - 1)).guarded _
  | wma n => exact causal_trailing n unavailable fun window => finitePoint (weightedMean window)
  | rsi n => exact causal_rsiSeries n
  | roc n => exact causal_rocSeries n
  | stddev n => exact causal_trailing n unavailable fun window => finitePoint (deviation window)
  | macd fast slow signal => exact causal_macdSeries fast slow signal
  | bollinger n hundredths => exact causal_trailing n _ (bandsPoint hundredths)

/-- A reading needs no value after the position it is taken at. -/
theorem reading?_take [RootArithmetic α] (which : Indicator) (values : List α) (field : Field) {i n : Nat}
    (before : i < n) : (which.series (values.take n)).reading? i field = (which.series values).reading? i field := by
  unfold Series.reading?
  rw [(causal_series which).getElem?_take values before]

/-- Values that come later change no point before them, so every reading is that of the values up to its position. -/
theorem series_append [RootArithmetic α] (which : Indicator) (xs ys : List α) :
    (which.series (xs ++ ys)).take xs.length = which.series xs ∧
      ∀ (i : Fin xs.length) (field : Field),
        (which.series (xs ++ ys)).reading? i field = (which.series (xs.take (i + 1))).reading? i field := by
  refine ⟨causal_series which xs ys, fun i field => ?_⟩
  rw [← List.take_append_of_le_length i.isLt, reading?_take which (xs ++ ys) field (Nat.lt_succ_self i)]

end Screener.Indicator
