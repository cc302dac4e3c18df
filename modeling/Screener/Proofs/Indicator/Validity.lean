import Screener.Proofs.Indicator.Points

/-! Which points of a series count. The history that an indicator states is exactly what it takes: a point counts from
there on, and of the windowed ones and the change only if what they compute is a finite number. -/
namespace Screener.Indicator
open Arithmetic
variable {α : Type}

def Proper : Indicator → Prop
  | .sma n | .ema n | .wma n | .rsi n | .roc n | .stddev n | .bollinger n _ => 0 < n
  | .macd fast slow signal => 0 < fast ∧ 0 < slow ∧ 0 < signal

def lastValues (n i : Nat) (values : List α) : List α := (values.take (i + 1)).drop (i + 1 - n)

/-- What is computed at a position is finite, for those indicators that have to check this. -/
def Defined [RootArithmetic α] (which : Indicator) (values : List α) (i : Nat) : Prop :=
  match which with
  | .sma _ | .ema _ | .rsi _ | .macd _ _ _ => True
  | .wma n => isFinite (weightedMean (lastValues n i values))
  | .stddev n => isFinite (deviation (lastValues n i values))
  | .bollinger n _ => isFinite (mean (lastValues n i values)) ∧ isFinite (deviation (lastValues n i values))
  | .roc n => ∃ base current, values[i - n]? = some base ∧ values[i]? = some current ∧
      isFinite base ∧ same base zero = false ∧ isFinite ((current / base - one) * hundred)

theorem window_eq_lastValues {n i : Nat} (full : n ≤ i + 1) (values : List α) :
    (values.drop (i + 1 - n)).take n = lastValues n i values := by
  rw [lastValues, List.drop_take, Nat.sub_sub_self full]

/-- A point of a window counts if the window is full and its own point counts. -/
theorem valid_trailing {n i : Nat} (used : 0 < n) {early : Point α} (idle : early.valid = false)
    {point : List α → Point α} {values : List α} {p : Point α}
    (here : (trailing n early point values)[i]? = some p) :
    p.valid = true ↔ n ≤ i + 1 ∧ (point (lastValues n i values)).valid = true := by
  rw [getElem?_trailing] at here
  obtain ⟨_, -, rfl⟩ := Option.map_eq_some_iff.1 here
  by_cases full : n ≤ i + 1
  · rw [if_neg (by omega), window_eq_lastValues full]
    exact (and_iff_right full).symm
  · rw [if_pos (by omega), idle]
    simp [full]

theorem valid_pointsFrom {first i : Nat} {outputs : List (Output α)} {p : Point α}
    (here : (pointsFrom first outputs)[i]? = some p) : p.valid = true ↔ first ≤ i := by
  rw [getElem?_pointsFrom] at here
  obtain ⟨_, -, rfl⟩ := Option.map_eq_some_iff.1 here
  exact decide_eq_true_iff

theorem valid_rsiSeries [Arithmetic α] {n i : Nat} (used : 0 < n) {values : List α} {p : Point α}
    (here : (rsiSeries n values)[i]? = some p) : p.valid = true ↔ n ≤ i := by
  rw [getElem?_rsiSeries used] at here
  obtain ⟨_, -, rfl⟩ := Option.map_eq_some_iff.1 here
  split <;> simp <;> omega

private theorem valid_changePoint [Arithmetic α] (base current : α) :
    (changePoint base current).valid = true ↔
      isFinite base ∧ same base zero = false ∧ isFinite ((current / base - one) * hundred) := by
  unfold changePoint
  cases same base zero <;> cases finite : isFinite base <;> simp

theorem valid_rocSeries [Arithmetic α] {n i : Nat} (used : 0 < n) {values : List α} {p : Point α}
    (here : (rocSeries n values)[i]? = some p) :
    p.valid = true ↔ n ≤ i ∧ ∃ base current, values[i - n]? = some base ∧ values[i]? = some current ∧
      isFinite base ∧ same base zero = false ∧ isFinite ((current / base - one) * hundred) := by
  rw [getElem?_rocSeries n (by omega)] at here
  split at here
  · rename_i early
    obtain ⟨_, -, rfl⟩ := Option.map_eq_some_iff.1 here
    simp [Nat.not_le.2 early]
  · rename_i late
    obtain ⟨current, at_i, found⟩ := Option.bind_eq_some_iff.1 here
    obtain ⟨base, at_base, rfl⟩ := Option.map_eq_some_iff.1 found
    rw [valid_changePoint, at_i, at_base]
    simp [Nat.not_lt.1 late]

theorem length_series [RootArithmetic α] {which : Indicator} (proper : which.Proper) (values : List α) :
    (which.series values).length = values.length := by
  cases which with
  | sma n => simp [series, smaSeries, Nat.pos_iff_ne_zero.1 proper]
  | ema n => simp [series, emaSeries, Nat.pos_iff_ne_zero.1 proper]
  | wma n => simp [series, wmaSeries]
  | stddev n => simp [series, stddevSeries]
  | bollinger n hundredths => simp [series, bollingerSeries]
  | rsi n => exact length_rsiSeries n values
  | roc n => exact length_rocSeries n values
  | macd fast slow signal =>
    obtain ⟨fast_pos, slow_pos, signal_pos⟩ := proper
    rw [series, macdSeries, if_neg (by omega)]
    simp

private theorem idle_trailing {early : Point α} (idle : early.valid = false) (point : List α → Point α)
    (values : List α) : ∀ p ∈ trailing 0 early point values, p.valid = false := by
  intro p member
  obtain ⟨i, here⟩ := List.mem_iff_getElem?.1 member
  rw [getElem?_trailing] at here
  obtain ⟨_, -, rfl⟩ := Option.map_eq_some_iff.1 here
  rw [if_pos (.inl rfl), idle]

private theorem idle_series [RootArithmetic α] {which : Indicator} (improper : ¬which.Proper) (values : List α) :
    ∀ point ∈ which.series values, point.valid = false := by
  cases which with
  | macd fast slow signal =>
    have zero : fast = 0 ∨ slow = 0 ∨ signal = 0 := by
      simp only [Proper] at improper
      omega
    simp [series, macdSeries, zero]
  | sma n | ema n | rsi n | roc n =>
    obtain rfl : n = 0 := Nat.eq_zero_of_not_pos improper
    simp [series, smaSeries, emaSeries, rsiSeries, rocSeries]
  | wma n | stddev n | bollinger n _ =>
    obtain rfl : n = 0 := Nat.eq_zero_of_not_pos improper
    simp only [series, wmaSeries, stddevSeries, bollingerSeries]
    exact idle_trailing rfl _ values

theorem proper_of_valid [RootArithmetic α] {which : Indicator} {values : List α} {i : Nat} {point : Point α}
    (here : (which.series values)[i]? = some point) (valid : point.valid = true) : which.Proper := by
  refine Classical.byContradiction fun improper => ?_
  rw [idle_series improper values point (List.mem_of_getElem? here)] at valid
  cases valid

theorem valid_series [RootArithmetic α] {which : Indicator} (proper : which.Proper) {values : List α} {i : Nat}
    (counted : i + 1 < Size.most) {point : Point α} (here : (which.series values)[i]? = some point) :
    point.valid = true ↔ which.minHistory ≤ i + 1 ∧ which.Defined values i := by
  cases which with
  | sma n =>
    rw [series, smaSeries, if_neg (Nat.pos_iff_ne_zero.1 proper)] at here
    rw [valid_trailing proper rfl here, minHistory, Nat.max_eq_left proper]
    simp [Defined]
  | wma n =>
    rw [series, wmaSeries] at here
    rw [valid_trailing proper rfl here, minHistory, Nat.max_eq_left proper]
    rfl
  | stddev n =>
    rw [series, stddevSeries] at here
    rw [valid_trailing proper rfl here, minHistory, Nat.max_eq_left proper]
    rfl
  | bollinger n hundredths =>
    rw [series, bollingerSeries] at here
    rw [valid_trailing proper rfl here, minHistory, Nat.max_eq_left proper]
    simp [Defined, bandsPoint]
  | ema n =>
    rw [series, emaSeries, if_neg (Nat.pos_iff_ne_zero.1 proper)] at here
    rw [valid_pointsFrom here, minHistory, Nat.max_eq_left proper]
    simp [Defined]
  | rsi n =>
    rw [valid_rsiSeries proper here]
    simp only [minHistory, Size.add, Defined, and_true]
    omega
  | roc n =>
    rw [valid_rocSeries proper here]
    refine and_congr_left' ?_
    simp only [minHistory, Size.add]
    omega
  | macd fast slow signal =>
    obtain ⟨fast_pos, slow_pos, signal_pos⟩ := proper
    rw [series, macdSeries, if_neg (by omega)] at here
    rw [valid_pointsFrom here]
    simp only [minHistory, Size.add, macdStart, Defined, and_true]
    omega

/-- An indicator gives one point for each value, and a point counts exactly if the stated history is there and what is
computed at it is finite where that is asked. With a period of zero no point counts, and nothing is ever read before
the stated history. A history that does not fit a machine word stays at the greatest count, which no position reaches. -/
theorem counts_from_minHistory [RootArithmetic α] (which : Indicator) (values : List α) :
    (which.Proper → (which.series values).length = values.length ∧
      ∀ i point, i + 1 < Size.most → (which.series values)[i]? = some point →
        (point.valid = true ↔ which.minHistory ≤ i + 1 ∧ which.Defined values i)) ∧
    (¬which.Proper → ∀ point ∈ which.series values, point.valid = false) ∧
    ∀ i field x, (which.series values).reading? i field = some x → which.minHistory ≤ i + 1 := by
  refine ⟨fun proper => ⟨length_series proper values, fun i point counted here => valid_series proper counted here⟩,
    fun improper => idle_series improper values, fun i field x read => ?_⟩
  refine Nat.not_lt.1 fun early => ?_
  rw [reading?_of_early which values field early] at read
  cases read

theorem counts_from_minHistory_sample :
    let values : List Float := [1.0, 1.0 / 0.0, 3.0, 4.0]
    let series := (Indicator.wma 2).series values
    (Indicator.wma 2).Proper ∧ series.length = 4 ∧
      (∀ point, series[1]? = some point → point.valid = false) ∧
      (∀ point, series[3]? = some point → point.valid = true) ∧
      series.reading? 3 .value = some (11.0 / 3.0) ∧ (Indicator.wma 2).minHistory ≤ 3 + 1 ∧
      ¬(Indicator.wma 0).Proper ∧ ∀ point ∈ (Indicator.wma 0).series values, point.valid = false := by
  intro values series
  have proper : (Indicator.wma 2).Proper := Nat.two_pos
  have improper : ¬(Indicator.wma 0).Proper := Nat.lt_irrefl 0
  have undefined : ¬isFinite (weightedMean (lastValues 2 1 values)) := by decide +kernel
  have defined : isFinite (weightedMean (lastValues 2 3 values)) := by decide +kernel
  have read : series.reading? 3 .value = some (11.0 / 3.0) := by decide +kernel
  obtain ⟨whole, -, late⟩ := counts_from_minHistory (.wma 2) values
  obtain ⟨count, exact⟩ := whole proper
  refine ⟨proper, count, fun point here => ?_, fun point here => ?_, read, late 3 .value _ read, improper,
    (counts_from_minHistory (.wma 0) values).2.1 improper⟩
  · exact Bool.eq_false_iff.2 fun counts => undefined ((exact 1 point (by decide) here).1 counts).2
  · exact (exact 3 point (by decide) here).2 ⟨by decide, defined⟩

end Screener.Indicator
