import Screener.Proofs.Indicator.Composite
import Screener.Proofs.Indicator.Weights

/-! Moving means in exact arithmetic. Whatever the period is, the values that a moving mean has seen are weighed so that the
weights make one: the mean stays between the least and the greatest of them, and it is stretched and shifted as they are.
The gap between two exponential means is stretched with the values, and no shift of them shows in it. -/
namespace Screener.Indicator
open Arithmetic

private theorem sum_exact (xs : List ℚ) : Arithmetic.sum xs = xs.sum := List.sum_eq_foldl.symm

section
variable {series : Series ℚ} {i : Nat}

theorem reading?_of_single {x : ℚ} (here : series[i]? = some ⟨true, .single x⟩) : series.reading? i .value = some x := by
  rw [Series.reading?, here]
  rfl

private theorem reading?_of_nothing (nothing : series[i]? = none) (field : Field) : series.reading? i field = none := by
  rw [Series.reading?, nothing]

private theorem reading?_of_silent {start : Nat} (silent : SilentBefore start series) (early : i < start)
    (field : Field) : series.reading? i field = none := by
  rw [Series.reading?]
  cases here : series[i]? with
  | none => rfl
  | some point => simp only [silent i early point here, Bool.false_eq_true, if_false]

end

/-- From the `n`-th value on, the point at a position is the mean of the values seen there under weights that depend on the
position only; before that no point counts. -/
structure Weighing (n : Nat) (series : List ℚ → Series ℚ) (seen : Nat → List ℚ → List ℚ) (weights : Nat → Weights) :
    Prop where
  early : ∀ values i, i + 1 < n → (series values).reading? i .value = none
  outside : ∀ values i, values.length ≤ i → (series values).reading? i .value = none
  mean : ∀ values i, n ≤ i + 1 → i < values.length →
    (series values).reading? i .value = some ((weights i).mean (seen i values))
  size : ∀ values i, n ≤ i + 1 → i < values.length → (weights i).size = (seen i values).length
  seen_map : ∀ (f : ℚ → ℚ) i values, seen i (values.map f) = (seen i values).map f

/-- A mean that counts from the `n`-th value on. It lies between the least and the greatest of the values that it has seen,
and it is stretched and shifted as the values are. -/
structure MovingMean (n : Nat) (series : List ℚ → Series ℚ) (seen : Nat → List ℚ → List ℚ) : Prop where
  counts : ∀ values i, ((series values).reading? i .value).isSome ↔ n ≤ i + 1 ∧ i < values.length
  between : ∀ values i x, (series values).reading? i .value = some x → Between (seen i values) x
  affine : ∀ values i (a b : ℚ), (series (values.map fun x => a * x + b)).reading? i .value =
    ((series values).reading? i .value).map fun x => a * x + b

/-- A gap between means that counts from a position on. All three of its numbers are stretched as the values are, and none
shows how far the values are shifted. -/
structure MovingGap (first : Nat) (series : List ℚ → Series ℚ) : Prop where
  counts : ∀ values i, ∀ field ∈ [Field.macdLine, .macdSignal, .macdHistogram],
    ((series values).reading? i field).isSome ↔ first ≤ i ∧ i < values.length
  affine : ∀ values i field (a b : ℚ), (series (values.map fun x => a * x + b)).reading? i field =
    ((series values).reading? i field).map (a * ·)

namespace Weighing
variable {n : Nat} {series : List ℚ → Series ℚ} {seen : Nat → List ℚ → List ℚ} {weights : Nat → Weights}

private theorem reading?_eq (weighing : Weighing n series seen weights) (values : List ℚ) (i : Nat) :
    (series values).reading? i .value =
      if n ≤ i + 1 ∧ i < values.length then some ((weights i).mean (seen i values)) else none := by
  by_cases full : n ≤ i + 1
  · by_cases inside : i < values.length
    · rw [if_pos ⟨full, inside⟩, weighing.mean values i full inside]
    · rw [if_neg fun both => inside both.2, weighing.outside values i (Nat.not_lt.1 inside)]
  · rw [if_neg fun both => full both.1, weighing.early values i (Nat.not_le.1 full)]

theorem movingMean (weighing : Weighing n series seen weights) : MovingMean n series seen where
  counts values i := by
    rw [weighing.reading?_eq]
    split <;> simp_all
  between values i x read := by
    rw [weighing.reading?_eq] at read
    split at read
    · rename_i here
      obtain rfl := Option.some.inj read
      exact Weights.between_mean (weighing.size values i here.1 here.2)
    · cases read
  affine values i a b := by
    rw [weighing.reading?_eq, weighing.reading?_eq, List.length_map, weighing.seen_map]
    split
    · rename_i here
      rw [Weights.mean_affine (weighing.size values i here.1 here.2), Option.map_some]
    · rfl

end Weighing

section
variable {n : Nat}

private theorem lastValues_map (n i : Nat) (f : ℚ → ℚ) (values : List ℚ) :
    lastValues n i (values.map f) = (lastValues n i values).map f := by
  rw [lastValues, lastValues, List.map_drop, List.map_take]

private theorem weighing_trailing (used : 0 < n) (early : Point ℚ) (idle : early.valid = false)
    (point : List ℚ → Point ℚ) (weights : Weights) (size : weights.size = n)
    (mean : ∀ window, window.length = n → point window = ⟨true, .single (weights.mean window)⟩) :
    Weighing n (trailing n early point) (lastValues n) fun _ => weights where
  early values i short := reading?_of_silent (SilentBefore.trailing n early idle point values) (by omega) .value
  outside values i beyond := reading?_of_nothing (List.getElem?_eq_none (by rwa [length_trailing])) .value
  mean values i full inside := by
    refine reading?_of_single ?_
    rw [getElem?_trailing_full used full, List.getElem?_eq_getElem inside, Option.map_some,
      mean _ (length_lastValues full inside)]
  size values i full inside := by rw [size, length_lastValues full inside]
  seen_map f i values := lastValues_map n i f values

private theorem mean_equal (used : 0 < n) {window : List ℚ} (full : window.length = n) :
    (Weights.equal n used).mean window = window.sum / n := by
  subst full
  rw [Weights.mean, Weights.equal, Weights.dot_replicate, inv_mul_eq_div]

private theorem weighing_sma (used : 0 < n) :
    Weighing n (smaSeries n) (lastValues n) fun _ => Weights.equal n used := by
  rw [smaSeries_eq used]
  refine weighing_trailing used _ rfl _ _ (Weights.size_equal n used) fun window full => ?_
  rw [mean_equal used full, ← sum_exact]
  rfl

private theorem dot_rising (c : ℚ) (window : List ℚ) (start : Nat) :
    Weights.dot ((List.range' start window.length).map fun k : Nat => c * ((k : ℚ) + 1)) window =
      c * ((window.zipIdx start).map fun (price, i) => price * ((i + 1 : Nat) : ℚ)).sum := by
  induction window generalizing start with
  | nil => simp [Weights.dot]
  | cons price rest ih =>
    rw [List.length_cons, List.range'_succ, List.map_cons, Weights.dot_cons, ih, List.zipIdx_cons, List.map_cons,
      List.sum_cons]
    push_cast
    ring

private theorem mean_rising (used : 0 < n) {window : List ℚ} (full : window.length = n) :
    (Weights.rising n used).mean window = weightedMean window := by
  subst full
  have weighted := dot_rising (window.length * (window.length + 1) / 2 : ℚ)⁻¹ window 0
  rw [← List.range_eq_range'] at weighted
  rw [Weights.mean, Weights.rising, weighted, inv_mul_eq_div, weightedMean, sum_exact]
  rfl

private theorem weighing_wma (used : 0 < n) :
    Weighing n (wmaSeries n) (lastValues n) fun _ => Weights.rising n used := by
  refine weighing_trailing used unavailable rfl (fun window => finitePoint (weightedMean window)) _
    (Weights.size_rising n used) fun window full => ?_
  rw [mean_rising used full]
  rfl

end

section
variable {n : Nat}

private theorem emaOf_append (n : Nat) {values : List ℚ} (seeded : n ≤ values.length) (x : ℚ) :
    emaOf n (values ++ [x]) = emaOf n values + 2 / (n + 1) * (x - emaOf n values) := by
  rw [emaOf, List.drop_append_of_le_length seeded, List.take_append_of_le_length seeded, List.foldl_append]
  rfl

private theorem emaOf_eq_mean (used : 0 < n) {values : List ℚ} {further : Nat} (length : values.length = n + further) :
    emaOf n values = (Weights.exponential n used further).mean values := by
  induction further generalizing values with
  | zero =>
    have full : values.length = n := length
    rw [emaOf, List.drop_of_length_le (by omega), List.take_of_length_le (by omega), Weights.exponential,
      mean_equal used full, ← sum_exact]
    rfl
  | succ further ih =>
    have some_left : values ≠ [] := List.ne_nil_of_length_pos (by omega)
    obtain ⟨before, x, rfl⟩ : ∃ before x, values = before ++ [x] :=
      ⟨_, _, (List.dropLast_append_getLast some_left).symm⟩
    have earlier : before.length = n + further := by simpa [← Nat.add_assoc] using length
    rw [emaOf_append n (by omega), ih earlier, Weights.exponential,
      Weights.mean_followed _ _ x (by rw [Weights.size_exponential, earlier])]

private theorem emaOf_affine (used : 0 < n) {values : List ℚ} (seeded : n ≤ values.length) (a b : ℚ) :
    emaOf n (values.map fun x => a * x + b) = a * emaOf n values + b := by
  have length : values.length = n + (values.length - n) := by omega
  rw [emaOf_eq_mean used length, emaOf_eq_mean used (by rwa [List.length_map]),
    Weights.mean_affine (by rw [Weights.size_exponential, ← length])]

private theorem weighing_ema (used : 0 < n) : Weighing n (emaSeries n) (fun i => List.take (i + 1))
    fun i => Weights.exponential n used (i + 1 - n) where
  early values i short := by
    rw [emaSeries, if_neg (Nat.pos_iff_ne_zero.1 used)]
    exact reading?_of_silent (SilentBefore.pointsFrom (n - 1) _) (by omega) .value
  outside values i beyond := by
    refine reading?_of_nothing (List.getElem?_eq_none ?_) .value
    rw [emaSeries, if_neg (Nat.pos_iff_ne_zero.1 used)]
    simpa using beyond
  mean values i full inside := by
    have length : (values.take (i + 1)).length = n + (i + 1 - n) := by
      rw [List.length_take]
      omega
    refine reading?_of_single (getElem?_emaSeries used full ?_)
    rw [getElem?_emaValues used, List.getElem?_eq_getElem inside, Option.map_some, if_neg (by omega),
      emaOf_eq_mean used length]
  size values i full inside := by
    rw [Weights.size_exponential, List.length_take]
    omega
  seen_map f i values := List.map_take.symm

end

section
variable {fast slow signal i : Nat} {values : List ℚ}

private theorem macdLine_affine (used : 0 < fast ∧ 0 < slow) (started : macdStart fast slow ≤ i) (a b : ℚ) :
    (macdLine fast slow (values.map fun x => a * x + b))[i]? = (macdLine fast slow values)[i]?.map (a * ·) := by
  have ready : max fast slow ≤ i + 1 := by
    rw [macdStart] at started
    omega
  rw [getElem?_macdLine used ready, getElem?_macdLine used ready, List.getElem?_map]
  by_cases inside : i < values.length
  · have seeded : max fast slow ≤ (values.take (i + 1)).length := by
      rw [List.length_take]
      omega
    rw [List.getElem?_eq_getElem inside, ← List.map_take, emaOf_affine used.1 (by omega), emaOf_affine used.2 (by omega)]
    simp only [Option.map_some, Option.some.injEq]
    exact add_sub_add_right_eq_sub _ _ b |>.trans (mul_sub a _ _).symm
  · rw [List.getElem?_eq_none (Nat.not_lt.1 inside)]
    rfl

private theorem emaValues_scaled (used : 0 < signal) (xs : List ℚ) (a : ℚ) :
    emaValues signal (xs.map (a * ·)) = (emaValues signal xs).map (a * ·) := by
  refine List.ext_getElem? fun i => ?_
  rw [List.getElem?_map, getElem?_emaValues used, getElem?_emaValues used, List.getElem?_map]
  by_cases inside : i < xs.length
  · rw [List.getElem?_eq_getElem inside]
    simp only [Option.map_some, Option.some.injEq]
    split
    · exact (mul_zero a).symm
    · have seeded : signal ≤ (xs.take (i + 1)).length := by
        rw [List.length_take]
        omega
      simpa only [add_zero, ← List.map_take] using emaOf_affine used seeded a 0
  · rw [List.getElem?_eq_none (Nat.not_lt.1 inside)]
    rfl

private theorem macdSignal_affine (used : 0 < fast ∧ 0 < slow) (smoothed : 0 < signal)
    (started : macdStart fast slow ≤ i) (a b : ℚ) :
    (macdSignal fast slow signal (values.map fun x => a * x + b))[i]? =
      (macdSignal fast slow signal values)[i]?.map (a * ·) := by
  have line : (macdLine fast slow (values.map fun x => a * x + b)).drop (macdStart fast slow) =
      ((macdLine fast slow values).drop (macdStart fast slow)).map (a * ·) := by
    refine List.ext_getElem? fun k => ?_
    rw [List.getElem?_map, List.getElem?_drop, List.getElem?_drop, macdLine_affine used (Nat.le_add_right _ k)]
  rw [getElem?_macdSignal_of_started signal started, getElem?_macdSignal_of_started signal started, line,
    emaValues_scaled smoothed, List.getElem?_map]

private theorem reading?_macdSeries_eq (proper : (macd fast slow signal).Proper) (values : List ℚ) (field : Field) :
    (macdSeries fast slow signal values).reading? i field =
      if Size.add (macdStart fast slow) (signal - 1) ≤ i then
        (macdLine fast slow values)[i]?.bind fun line => (macdSignal fast slow signal values)[i]?.bind fun mean =>
          (Output.macd line mean (line - mean)).get? field
      else none := by
  rw [macdSeries_eq proper]
  split
  · rename_i counted
    rw [Series.reading?, getElem?_pointsFrom, List.getElem?_zipWith, decide_eq_true counted]
    cases (macdLine fast slow values)[i]? with
    | none => rfl
    | some line =>
      cases (macdSignal fast slow signal values)[i]? with
      | none => rfl
      | some mean => cases field <;> rfl
  · rename_i early
    exact reading?_of_silent (SilentBefore.pointsFrom _ _) (Nat.not_le.1 early) field

private theorem movingGap_macd (proper : (macd fast slow signal).Proper) (fits : max fast slow ≤ Size.most) :
    MovingGap (Size.add (macdStart fast slow) (signal - 1)) (macdSeries fast slow signal) where
  counts values i field member := by
    rw [reading?_macdSeries_eq proper]
    by_cases counted : Size.add (macdStart fast slow) (signal - 1) ≤ i
    · by_cases inside : i < values.length
      · rw [if_pos counted, List.getElem?_eq_getElem (by rwa [length_macdLine]), Option.bind_some,
          List.getElem?_eq_getElem (by rwa [length_macdSignal]), Option.bind_some]
        simp only [List.mem_cons, List.not_mem_nil, or_false] at member
        rcases member with rfl | rfl | rfl <;> exact iff_of_true rfl ⟨counted, inside⟩
      · rw [if_pos counted, List.getElem?_eq_none (by rw [length_macdLine]; omega)]
        exact iff_of_false Bool.false_ne_true fun both => inside both.2
    · rw [if_neg counted]
      exact iff_of_false Bool.false_ne_true fun both => counted both.1
  affine values i field a b := by
    have ⟨fast_pos, slow_pos, signal_pos⟩ := proper
    rw [reading?_macdSeries_eq proper, reading?_macdSeries_eq proper]
    split
    · rename_i counted
      -- A start that fits a machine word is not after the position from which the gap counts.
      have started : macdStart fast slow ≤ i := by
        simp only [macdStart, Size.add] at counted ⊢
        omega
      rw [macdLine_affine ⟨fast_pos, slow_pos⟩ started, macdSignal_affine ⟨fast_pos, slow_pos⟩ signal_pos started]
      cases (macdLine fast slow values)[i]? with
      | none => rfl
      | some line =>
        cases (macdSignal fast slow signal values)[i]? with
        | none => rfl
        | some mean =>
          have histogram : a * line - a * mean = a * (line - mean) := (mul_sub a line mean).symm
          cases field with
          | macdHistogram => exact congrArg some histogram
          | _ => rfl
    · rfl

end

/-- Moving means in exact arithmetic. The plain and the weighted mean lie between the least and the greatest of the last
`n` values, the exponential one between those of all values so far, and all three are stretched and shifted as the values
are. The gap between two exponential means, whose periods are machine words, is stretched with them and not shifted. -/
theorem moving_means_and_gap {n : Nat} (used : 0 < n) :
    MovingMean n (smaSeries n) (lastValues n) ∧ MovingMean n (wmaSeries n) (lastValues n) ∧
      MovingMean n (emaSeries n) (fun i values => values.take (i + 1)) ∧
      ∀ fast slow signal, 0 < fast → 0 < slow → 0 < signal → fast ≤ Size.most → slow ≤ Size.most →
        MovingGap (Size.add (max fast slow - 1) (signal - 1)) (macdSeries fast slow signal) := by
  refine ⟨(weighing_sma used).movingMean, (weighing_wma used).movingMean, (weighing_ema used).movingMean, ?_⟩
  intro fast slow signal fast_pos slow_pos signal_pos fast_fits slow_fits
  exact movingGap_macd ⟨fast_pos, slow_pos, signal_pos⟩ (max_le fast_fits slow_fits)

theorem moving_means_and_gap_sample :
    let values : List ℚ := [1, 4, 2, 8, 5]
    let moved : List ℚ := values.map fun x => -3 * x + 7
    0 < 2 ∧ (wmaSeries 2 values).reading? 3 .value = some 6 ∧ Between (lastValues 2 3 values) 6 ∧
      (smaSeries 2 moved).reading? 3 .value = some (-3 * 5 + 7) ∧
      (emaSeries 2 values).reading? 3 .value = some (109 / 18) ∧ Between [1, 4, 2, 8] (109 / 18) ∧
      (macdSeries 1 2 2 values).reading? 3 .macdSignal = some (41 / 27) ∧
      (macdSeries 1 2 2 moved).reading? 3 .macdSignal = some (-3 * (41 / 27)) := by
  intro values moved
  obtain ⟨plain, weighted, exponential, gap⟩ := moving_means_and_gap Nat.two_pos
  have weighted_here : (wmaSeries 2 values).reading? 3 .value = some 6 := by decide +kernel
  have plain_here : (smaSeries 2 values).reading? 3 .value = some 5 := by decide +kernel
  have exponential_here : (emaSeries 2 values).reading? 3 .value = some (109 / 18) := by decide +kernel
  have gap_here : (macdSeries 1 2 2 values).reading? 3 .macdSignal = some (41 / 27) := by decide +kernel
  refine ⟨Nat.two_pos, weighted_here, weighted.between values 3 6 weighted_here, ?_, exponential_here,
    exponential.between values 3 _ exponential_here, gap_here, ?_⟩
  · rw [plain.affine, plain_here]
    rfl
  · rw [(gap 1 2 2 Nat.one_pos Nat.two_pos Nat.two_pos (by decide) (by decide)).affine, gap_here]
    rfl

end Screener.Indicator
