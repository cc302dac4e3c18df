import Screener.Proofs.Indicator.Locality

/-! Indicators that are made of others. The points of the gap between two exponential means, and those of the bands around
a mean, hold exactly the numbers that the plain indicators give, whatever the arithmetic is. -/
namespace Screener.Indicator
open Arithmetic
variable {α : Type}

def Series.column (series : Series α) (field : Field) : List α :=
  (series.map Point.output).filterMap fun output => output.get? field

private theorem map_output_pointsFrom (first : Nat) (outputs : List (Output α)) :
    (pointsFrom first outputs).map Point.output = outputs := by
  rw [pointsFrom, List.map_map]
  exact List.zipIdx_map_fst 0 outputs

private theorem getElem?_of_pointsFrom {first i : Nat} {outputs : List (Output α)} {p : Point α}
    (here : (pointsFrom first outputs)[i]? = some p) (valid : p.valid = true) :
    first ≤ i ∧ outputs[i]? = some p.output := by
  refine ⟨(valid_pointsFrom here).1 valid, ?_⟩
  rw [getElem?_pointsFrom] at here
  obtain ⟨output, found, rfl⟩ := Option.map_eq_some_iff.1 here
  exact found

section
variable [Arithmetic α]

theorem getElem?_emaSeries {n i : Nat} (used : 0 < n) (seeded : n ≤ i + 1) {values : List α} {x : α}
    (here : (emaValues n values)[i]? = some x) : (emaSeries n values)[i]? = some ⟨true, .single x⟩ := by
  rw [emaSeries, if_neg (Nat.pos_iff_ne_zero.1 used), getElem?_pointsFrom, List.getElem?_map, here, Option.map_some,
    Option.map_some, decide_eq_true (by omega : n - 1 ≤ i)]

theorem getElem?_macdSignal_of_started {fast slow i : Nat} (signal : Nat) (started : macdStart fast slow ≤ i)
    (values : List α) :
    (macdSignal fast slow signal values)[i]? =
      (emaValues signal ((macdLine fast slow values).drop (macdStart fast slow)))[i - macdStart fast slow]? := by
  rw [macdSignal]
  by_cases inside : macdStart fast slow ≤ (macdLine fast slow values).length
  · rw [Nat.min_eq_left inside, List.getElem?_append_right (by simpa using started), List.length_replicate]
  · rw [List.getElem?_eq_none (by simp at inside ⊢; omega), List.getElem?_eq_none (by simp at inside ⊢; omega)]

theorem macdSeries_eq {fast slow signal : Nat} (proper : (macd fast slow signal).Proper) (values : List α) :
    macdSeries fast slow signal values = pointsFrom (Size.add (macdStart fast slow) (signal - 1))
      (List.zipWith (fun line signal => .macd line signal (line - signal))
        (macdLine fast slow values) (macdSignal fast slow signal values)) := by
  obtain ⟨fast_pos, slow_pos, signal_pos⟩ := proper
  rw [macdSeries, if_neg (by omega)]

private theorem column_macdSeries {fast slow signal : Nat} (proper : (macd fast slow signal).Proper) (values : List α) :
    (macdSeries fast slow signal values).column .macdLine = macdLine fast slow values := by
  rw [macdSeries_eq proper, Series.column, map_output_pointsFrom, ← List.map_uncurry_zip_eq_zipWith,
    List.filterMap_map]
  calc
    _ = ((macdLine fast slow values).zip (macdSignal fast slow signal values)).map Prod.fst :=
      List.filterMap_eq_map ▸ rfl
    _ = macdLine fast slow values := List.map_fst_zip (by simp)

/-- A point of the gap that counts lies where both means and the signal are seeded, and holds their values there. -/
theorem macdSeries_of_valid {fast slow signal i : Nat} (proper : (macd fast slow signal).Proper)
    (counted : i < Size.most) {values : List α} {p : Point α}
    (here : (macdSeries fast slow signal values)[i]? = some p) (valid : p.valid = true) :
    macdStart fast slow + (signal - 1) ≤ i ∧ ∃ line mean,
      (macdLine fast slow values)[i]? = some line ∧ (macdSignal fast slow signal values)[i]? = some mean ∧
      p.output = .macd line mean (line - mean) := by
  rw [macdSeries_eq proper] at here
  obtain ⟨late, output⟩ := getElem?_of_pointsFrom here valid
  obtain ⟨line, mean, at_line, at_signal, made⟩ := List.getElem?_zipWith_eq_some.1 output
  refine ⟨?_, line, mean, at_line, at_signal, made.symm⟩
  rw [Size.add] at late
  omega

end

theorem length_lastValues {n i : Nat} (full : n ≤ i + 1) {values : List α} (inside : i < values.length) :
    (lastValues n i values).length = n := by
  simp [lastValues]
  omega

section
variable [RootArithmetic α]

private theorem bollingerSeries_of_valid {n hundredths i : Nat} (used : 0 < n) {values : List α} {p : Point α}
    (here : (bollingerSeries n hundredths values)[i]? = some p) (valid : p.valid = true) :
    i < values.length ∧ n ≤ i + 1 ∧ isFinite (deviation (lastValues n i values)) ∧
      p.output = (bandsPoint hundredths (lastValues n i values)).output := by
  obtain ⟨full, finite⟩ := (valid_trailing used rfl here).1 valid
  rw [bollingerSeries, getElem?_trailing_full used full] at here
  obtain ⟨_, at_i, rfl⟩ := Option.map_eq_some_iff.1 here
  exact ⟨(List.getElem?_eq_some_iff.1 at_i).1, full, (Bool.and_eq_true_iff.1 finite).2, rfl⟩

private theorem getElem?_smaSeries {n i : Nat} (used : 0 < n) (full : n ≤ i + 1) {values : List α}
    (inside : i < values.length) : (smaSeries n values)[i]? = some ⟨true, .single (mean (lastValues n i values))⟩ := by
  rw [smaSeries_eq used, getElem?_trailing_full used full, List.getElem?_eq_getElem inside, mean,
    length_lastValues full inside]
  rfl

private theorem getElem?_stddevSeries {n i : Nat} (used : 0 < n) (full : n ≤ i + 1) {values : List α}
    (inside : i < values.length) (finite : isFinite (deviation (lastValues n i values))) :
    (stddevSeries n values)[i]? = some ⟨true, .single (deviation (lastValues n i values))⟩ := by
  rw [stddevSeries, getElem?_trailing_full used full, List.getElem?_eq_getElem inside, Option.map_some, finitePoint, finite]

/-- Wherever a point of a composite indicator counts, the plain indicators that it is made of count too, and it holds their
numbers and what the same operations make of them. The signal is the exponential mean over the line from its start on. No
list is so long that its positions do not fit a machine word. -/
theorem composite_eq_components (values : List α) {i : Nat} {point : Point α} (valid : point.valid = true) :
    (∀ fast slow signal, i < Size.most → ((macd fast slow signal).series values)[i]? = some point →
      let start := max fast slow - 1
      let shown := ((macd fast slow signal).series values).column .macdLine
      ∃ f s g, ((ema fast).series values)[i]? = some ⟨true, .single f⟩ ∧
        ((ema slow).series values)[i]? = some ⟨true, .single s⟩ ∧ shown[i]? = some (f - s) ∧
        ((ema signal).series (shown.drop start))[i - start]? = some ⟨true, .single g⟩ ∧
        point.output = .macd (f - s) g (f - s - g)) ∧
    ∀ n hundredths, ((bollinger n hundredths).series values)[i]? = some point →
      ∃ m d, ((sma n).series values)[i]? = some ⟨true, .single m⟩ ∧
        ((stddev n).series values)[i]? = some ⟨true, .single d⟩ ∧
        point.output = .bands (m + bandWidth hundredths * d) m (m - bandWidth hundredths * d) := by
  constructor
  · intro fast slow signal counted here start shown
    have proper := proper_of_valid here valid
    have whole : shown = macdLine fast slow values := column_macdSeries proper values
    obtain ⟨late, _, g, at_line, at_signal, output⟩ := macdSeries_of_valid proper counted here valid
    obtain ⟨f, s, at_fast, at_slow, rfl⟩ := List.getElem?_zipWith_eq_some.1 at_line
    obtain ⟨fast_pos, slow_pos, signal_pos⟩ := proper
    have started : start ≤ i := Nat.le_trans (Nat.le_add_right _ _) late
    rw [getElem?_macdSignal_of_started signal started] at at_signal
    simp only [macdStart] at late
    refine ⟨f, s, g, getElem?_emaSeries fast_pos (by omega) at_fast, getElem?_emaSeries slow_pos (by omega) at_slow, ?_, ?_,
      output⟩
    · rw [whole, at_line]
    · rw [whole]
      exact getElem?_emaSeries signal_pos (by omega) at_signal
  · intro n hundredths here
    have used : 0 < n := proper_of_valid here valid
    obtain ⟨inside, full, finite, output⟩ := bollingerSeries_of_valid used here valid
    exact ⟨_, _, getElem?_smaSeries used full inside, getElem?_stddevSeries used full inside finite, output⟩

end

theorem composite_eq_components_sample :
    let values : List Float := [1.0, 3.0, 5.0, 9.0, 14.0]
    let gap := (macd 1 3 3).series values
    let bands := (bollinger 2 200).series values
    (gap.reading? 4 .macdLine = some 4.0 ∧ gap.reading? 4 .macdSignal = some 3.0) ∧
      (bands.reading? 4 .middleBand = some 11.5 ∧ bands.reading? 4 .upperBand = some 16.5) ∧
      (∃ point f s g, gap[4]? = some point ∧ point.valid = true ∧
        ((ema 1).series values)[4]? = some ⟨true, .single f⟩ ∧ ((ema 3).series values)[4]? = some ⟨true, .single s⟩ ∧
        ((ema 3).series ((gap.column .macdLine).drop 2))[2]? = some ⟨true, .single g⟩ ∧
        point.output = .macd (f - s) g (f - s - g)) ∧
      ∃ point m d, bands[4]? = some point ∧ point.valid = true ∧
        ((sma 2).series values)[4]? = some ⟨true, .single m⟩ ∧ ((stddev 2).series values)[4]? = some ⟨true, .single d⟩ ∧
        point.output = .bands (m + bandWidth 200 * d) m (m - bandWidth 200 * d) := by
  intro values gap bands
  have there (which : Indicator) (proper : which.Proper) (enough : which.minHistory ≤ 5) (defined : which.Defined values 4) :
      ∃ point, (which.series values)[4]? = some point ∧ point.valid = true := by
    have inside : 4 < (which.series values).length := by rw [length_series proper]; decide
    have found := List.getElem?_eq_getElem inside
    exact ⟨_, found, (valid_series proper (by decide) found).2 ⟨enough, defined⟩⟩
  have finite : isFinite (mean (lastValues 2 4 values)) ∧ isFinite (deviation (lastValues 2 4 values)) := by
    decide +kernel
  refine ⟨by decide +kernel, by decide +kernel, ?_, ?_⟩
  · obtain ⟨point, here, valid⟩ := there (macd 1 3 3) ⟨by decide, by decide, by decide⟩ (by decide) trivial
    obtain ⟨f, s, g, fast, slow, -, signal, output⟩ := (composite_eq_components values valid).1 1 3 3 (by decide) here
    exact ⟨point, f, s, g, here, valid, fast, slow, signal, output⟩
  · obtain ⟨point, here, valid⟩ := there (bollinger 2 200) Nat.two_pos (by decide) finite
    obtain ⟨m, d, middle, spread, output⟩ := (composite_eq_components values valid).2 2 200 here
    exact ⟨point, m, d, here, valid, middle, spread, output⟩

end Screener.Indicator
