import Screener.Evaluation.Frame
import Screener.Proofs.Indicator.Causal
import Screener.Proofs.Machine.Word

/-! Indicators as a machine computes them. Places in a column are counted in words, windows are cut out as slices, and the
weights of a weighted mean come from a short counter. On a column that the counter is enough for, no step fails and the
machine gives the points of the indicator, whatever its parameters. -/
namespace Screener.Machine
open Indicator (Point Series Output Move)
open Evaluation (back?)
open Arithmetic
variable {α : Type}

/-- The greatest number of a counter that has 32 bits and a sign. -/
def mostWeight : Nat := Nat.pow 2 31 - 1

theorem lt_most {n : Nat} (few : n < mostWeight) : n + 1 ≤ Size.most :=
  Nat.le_trans few (by decide : mostWeight ≤ Size.most)

theorem number_places {xs : List α} (few : xs.length < mostWeight) : number Size.most 0 xs = .ok xs.zipIdx := by
  refine number_eq_ok ?_
  rw [Nat.zero_add]
  exact Nat.le_of_succ_le (lt_most few)

def trailing (period : Nat) (early : Point α) (point : List α → Step (Point α)) (values : List α) : Step (Series α) :=
  (List.range values.length).mapM fun i =>
    match back? (i + 1) period with
    | some first =>
      if 0 < period then do
        let window ← slice values first (i + 1)
        point window
      else return early
    | none => return early

private theorem slice_window {values : List α} {period i : Nat} (inside : i < values.length) (enough : period ≤ i + 1) :
    slice values (i + 1 - period) (i + 1) = .ok ((values.drop (i + 1 - period)).take period) := by
  rw [slice_eq (Nat.sub_le _ _) inside, List.drop_take, Nat.sub_sub_self enough]

private theorem trailing_eq {period : Nat} {early : Point α} {point : List α → Step (Point α)}
    {plain : List α → Point α}
    {values : List α} (each : ∀ window, window.length ≤ values.length → point window = .ok (plain window)) :
    trailing period early point values = .ok (Indicator.trailing period early plain values) := by
  refine mapM_eq_ok fun i member => ?_
  have inside := List.mem_range.1 member
  unfold back?
  by_cases enough : period ≤ i + 1
  · by_cases used : 0 < period
    · have window : ((values.drop (i + 1 - period)).take period).length ≤ values.length := by
        rw [List.length_take, List.length_drop]
        omega
      simp only [if_pos enough, if_pos used, slice_window inside enough, ok_bind, each _ window]
      rw [if_neg (by omega)]
    · simp only [if_pos enough, if_neg used]
      rw [if_pos (by omega)]
      rfl
  · simp only [if_neg enough]
    rw [if_pos (by omega)]
    rfl

section
variable [Arithmetic α]

def smaPoint (period : Nat) (values : List α) (i : Nat) : Step (Point α) := do
  let seen ← add i 1
  if seen < period then return ⟨false, .single zero⟩
  else
    let first ← sub seen period
    let window ← slice values first (← add i 1)
    return ⟨true, .single (sum window / ofNat period)⟩

def smaSeries (period : Nat) (values : List α) : Step (Series α) :=
  if period = 0 then return [] else (List.range values.length).mapM (smaPoint period values)

/-- The counter of the weights steps on once more than there are values. -/
def weightedMean (window : List α) : Step α := do
  let weighted ← number mostWeight 1 window
  let n : α := ofNat window.length
  return sum (weighted.map fun (price, weight) => price * ofNat weight) / (n * (n + one) / ofNat 2)

def wmaSeries (period : Nat) (values : List α) : Step (Series α) :=
  trailing period Indicator.unavailable (fun window => do return Indicator.finitePoint (← weightedMean window)) values

variable {values : List α}

private theorem smaSeries_eq (period : Nat) (few : values.length < mostWeight) :
    smaSeries period values = .ok (Indicator.smaSeries period values) := by
  unfold smaSeries Indicator.smaSeries
  split
  · rfl
  · rename_i used
    refine mapM_eq_ok fun i member => ?_
    have inside := List.mem_range.1 member
    have room := add_eq (Nat.le_trans (by omega) (lt_most few) : i + 1 ≤ Size.most)
    simp only [smaPoint, room, ok_bind]
    by_cases early : i + 1 < period
    · rw [if_pos early, if_pos (.inr early)]
      rfl
    · have enough := Nat.not_lt.1 early
      simp only [if_neg early, sub_eq enough, slice_window inside enough, ok_bind]
      rw [if_neg (by omega)]
      rfl

private theorem weightedMean_eq (window : List α) : weightedMean window =
    if window.length < mostWeight then .ok (Indicator.weightedMean window) else .error .overflow := by
  rw [weightedMean, number_eq (by decide : 1 ≤ mostWeight)]
  by_cases few : window.length < mostWeight
  · rw [if_pos few, if_pos (by omega), ok_bind, List.zipIdx_succ, List.map_map]
    rfl
  · rw [if_neg few, if_neg (by omega)]
    rfl

private theorem wmaSeries_eq (period : Nat) (few : values.length < mostWeight) :
    wmaSeries period values = .ok (Indicator.wmaSeries period values) := by
  refine trailing_eq fun window part => ?_
  rw [weightedMean_eq, if_pos (Nat.lt_of_le_of_lt part few)]
  rfl

/-- The bound is sharp: as soon as a window has as many values as the greatest weight, there are no points. -/
theorem wmaSeries_fails {period : Nat} (wide : mostWeight ≤ period) (filled : period ≤ values.length)
    (points : Series α) : wmaSeries period values ≠ .ok points := by
  intro done
  have used : 0 < period := Nat.lt_of_lt_of_le (by decide) wide
  have last : period - 1 < values.length := by omega
  obtain ⟨point, -, here⟩ := exists_right (mapM_eq_ok_iff.1 done) (List.mem_range.2 last)
  have window : ((values.drop 0).take period).length = period := by simp [filled]
  have full := slice_window last (by omega : period ≤ period - 1 + 1)
  rw [Nat.sub_add_cancel used, Nat.sub_self] at full
  simp only [back?, Nat.sub_add_cancel used, if_pos (Nat.le_refl period), if_pos used, Nat.sub_self, full, ok_bind,
    weightedMean_eq, window, if_neg (Nat.not_lt.2 wide)] at here
  cases here

end

section
variable [RootArithmetic α]

def stddevSeries (period : Nat) (values : List α) : Step (Series α) :=
  trailing period Indicator.unavailable (fun window => return Indicator.finitePoint (Indicator.deviation window)) values

def bollingerSeries (period hundredths : Nat) (values : List α) : Step (Series α) :=
  trailing period ⟨false, .bands gap gap gap⟩ (fun window => return Indicator.bandsPoint hundredths window) values

private theorem stddevSeries_eq (period : Nat) (values : List α) :
    stddevSeries period values = .ok (Indicator.stddevSeries period values) := trailing_eq fun _ _ => rfl

private theorem bollingerSeries_eq (period hundredths : Nat) (values : List α) :
    bollingerSeries period hundredths values = .ok (Indicator.bollingerSeries period hundredths values) :=
  trailing_eq fun _ _ => rfl

end

section
variable [Arithmetic α]

def fill (weight : α) : α → List α → List α → List α
  | mean, _ :: slots, price :: prices =>
    let next := mean + weight * (price - mean)
    next :: fill weight next slots prices
  | _, slots, _ => slots

def emaValues (period : Nat) (values : List α) : Step (List α) := do
  let out := values.map fun _ => zero
  if period = 0 ∨ values.length < period then return out
  else
    let weight := ofNat 2 / (ofNat period + one)
    let window ← slice values 0 period
    let seed := sum window / ofNat period
    let out ← put out (← sub period 1) seed
    let slots ← slice out period out.length
    let prices ← slice values period values.length
    return out.take period ++ fill weight seed slots prices

def emaSeries (period : Nat) (values : List α) : Step (Series α) :=
  if period = 0 then return []
  else do
    let numbered ← number Size.most 0 (← emaValues period values)
    numbered.mapM fun (mean, i) => do return ⟨period ≤ (← add i 1), .single mean⟩

def macdSignal (start signal : Nat) (values line : List α) : Step (List α) := do
  let zeros := values.map fun _ => zero
  if start < values.length then
    let tail ← slice line start line.length
    copy zeros start (← emaValues signal tail)
  else return zeros

def macdSeries (fast slow signal : Nat) (values : List α) : Step (Series α) :=
  if values.isEmpty ∨ fast = 0 ∨ slow = 0 ∨ signal = 0 then return []
  else do
    let quick ← emaValues fast values
    let steady ← emaValues slow values
    let line : List α := List.zipWith (· - ·) quick steady
    let start ← sub (max fast slow) 1
    let first := Size.add start (← sub signal 1)
    let signals ← macdSignal start signal values line
    let numbered ← number Size.most 0 (line.zip signals)
    return numbered.map fun ((line, signal), i) => ⟨first ≤ i, .macd line signal (line - signal)⟩

def pairs : List α → List (List α)
  | a :: b :: rest => [a, b] :: pairs (b :: rest)
  | _ => []

def move (pair : List α) : Step (Move α) := do return .ofChange ((← element pair 1) - (← element pair 0))

def strengthPoint (average : Move α) : Point α := ⟨true, .single (Indicator.strength average)⟩

/-- Writes a point for each move, behind the place with its number. -/
def writeStrengths (period : Nat) : Move α → Series α → List (Move α × Nat) → Step (Series α)
  | _, points, [] => return points
  | average, points, (move, i) :: rest => do
    let next := average.blend period move
    let points ← put points (← add i 1) (strengthPoint next)
    writeStrengths period next points rest

def rsiSeries (period : Nat) (values : List α) : Step (Series α) := do
  let points : Series α := values.map fun _ => ⟨false, .single gap⟩
  if 0 < period ∧ period < values.length then
    let moves ← (pairs values).mapM move
    let average := Indicator.seedMove period (← slice moves 0 period)
    let points ← put points period (strengthPoint average)
    let numbered ← number Size.most 0 moves
    writeStrengths period average points (numbered.drop period)
  else return points

def rocSeries (period : Nat) (values : List α) : Step (Series α) := do
  let numbered ← number Size.most 0 values
  numbered.mapM fun (current, i) =>
    match back? i period with
    | some place => do
      let base ← element values place
      return if 0 < period then Indicator.changePoint base current else ⟨false, .single gap⟩
    | none => return ⟨false, .single gap⟩

variable {values : List α}

private theorem fill_eq (weight mean : α) {slots prices : List α} (same : slots.length = prices.length) :
    fill weight mean slots prices = Indicator.smoothed weight mean prices := by
  induction prices generalizing mean slots with
  | nil =>
    obtain rfl := List.length_eq_zero_iff.1 same
    rfl
  | cons price rest ih =>
    cases slots with
    | nil => cases same
    | cons slot slots => exact congrArg _ (ih _ (Nat.succ.inj same))

private theorem emaValues_eq (period : Nat) (values : List α) :
    emaValues period values = .ok (Indicator.emaValues period values) := by
  unfold emaValues Indicator.emaValues
  rw [List.map_const']
  split
  · rfl
  · rename_i proper
    obtain ⟨used, enough⟩ := not_or.1 proper
    have enough := Nat.not_lt.1 enough
    have seat : period - 1 < (List.replicate values.length (zero : α)).length := by
      rw [List.length_replicate]
      omega
    have written (x : α) : ((List.replicate values.length (zero : α)).set (period - 1) x).length = values.length := by
      rw [List.length_set, List.length_replicate]
    have head (x : α) : ((List.replicate values.length (zero : α)).set (period - 1) x).take period =
        List.replicate (period - 1) zero ++ [x] := by
      have shown := take_set_replicate (by omega : period - 1 < values.length) (zero : α) x
      rwa [Nat.sub_add_cancel (by omega)] at shown
    simp only [slice_eq (Nat.zero_le _) enough, sub_eq (by omega : 1 ≤ period), put_eq seat, ok_bind,
      slice_to_end enough, List.drop_zero]
    rw [slice_to_end (by rwa [written]), ok_bind, head, fill_eq _ _ (by simp [written])]
    exact congrArg Except.ok (List.append_assoc _ _ _)

private theorem emaSeries_eq (period : Nat) (few : values.length < mostWeight) :
    emaSeries period values = .ok (Indicator.emaSeries period values) := by
  unfold emaSeries Indicator.emaSeries
  split
  · rfl
  · rename_i used
    have means : (Indicator.emaValues period values).length < mostWeight := by rwa [Indicator.length_emaValues]
    rw [emaValues_eq, ok_bind, number_places means, ok_bind, Indicator.pointsFrom, List.zipIdx_map, List.map_map]
    refine mapM_eq_ok fun entry member => ?_
    have inside := (List.getElem?_eq_some_iff.1 (List.mem_zipIdx_iff_getElem?.1 member)).1
    rw [Indicator.length_emaValues] at inside
    have room : entry.2 + 1 ≤ Size.most := Nat.le_trans inside (Nat.le_of_succ_le (lt_most few))
    have same : decide (period ≤ entry.2 + 1) = decide (period - 1 ≤ entry.2) := by
      rw [decide_eq_decide]
      omega
    simp only [add_eq room, ok_bind, same]
    rfl

private theorem macdSignal_eq (fast slow signal : Nat) (values : List α) :
    macdSignal (Indicator.macdStart fast slow) signal values (Indicator.macdLine fast slow values) =
      .ok (Indicator.macdSignal fast slow signal values) := by
  have counted := Indicator.length_macdLine fast slow values
  unfold macdSignal Indicator.macdSignal
  generalize Indicator.macdStart fast slow = start
  generalize Indicator.macdLine fast slow values = line at counted
  dsimp only
  rw [List.map_const', ← counted]
  split
  · rename_i begun
    have whole : start + (Indicator.emaValues signal (line.drop start)).length =
        (List.replicate line.length (zero : α)).length := by
      rw [Indicator.length_emaValues, List.length_drop, List.length_replicate]
      omega
    rw [slice_to_end (Nat.le_of_lt begun), ok_bind, emaValues_eq, ok_bind, copy_eq whole, List.take_replicate]
  · rename_i unbegun
    have nothing : line.drop start = [] := List.drop_of_length_le (Nat.not_lt.1 unbegun)
    have none : Indicator.emaValues signal ([] : List α) = [] :=
      List.length_eq_zero_iff.1 (Indicator.length_emaValues signal [])
    rw [nothing, none, Nat.min_eq_right (Nat.not_lt.1 unbegun), List.append_nil]
    rfl

private theorem points_of_lines (first : Nat) (line signals : List α) :
    ((line.zip signals).zipIdx.map fun ((line, signal), i) => (⟨first ≤ i, .macd line signal (line - signal)⟩ : Point α)) =
      Indicator.pointsFrom first (List.zipWith (fun line signal => .macd line signal (line - signal)) line signals) := by
  rw [Indicator.pointsFrom, ← List.map_uncurry_zip_eq_zipWith, List.zipIdx_map, List.map_map]
  rfl

private theorem macdSeries_eq (fast slow signal : Nat) (few : values.length < mostWeight) :
    macdSeries fast slow signal values = .ok (Indicator.macdSeries fast slow signal values) := by
  unfold macdSeries Indicator.macdSeries
  by_cases unused : fast = 0 ∨ slow = 0 ∨ signal = 0
  · rw [if_pos (.inr unused), if_pos unused]
    rfl
  · rw [if_neg unused]
    split
    · rename_i nothing
      obtain rfl := List.isEmpty_iff.1 (nothing.resolve_right unused)
      have none : Indicator.macdLine fast slow ([] : List α) = [] :=
        List.length_eq_zero_iff.1 (Indicator.length_macdLine fast slow [])
      rw [none]
      rfl
    · have lines : ((Indicator.macdLine fast slow values).zip
          (Indicator.macdSignal fast slow signal values)).length < mostWeight := by
        rw [List.length_zip, Indicator.length_macdLine]
        exact Nat.lt_of_le_of_lt (Nat.min_le_left _ _) few
      simp only [emaValues_eq, ok_bind, sub_eq (by omega : 1 ≤ max fast slow), sub_eq (by omega : 1 ≤ signal)]
      have signals := macdSignal_eq fast slow signal values
      unfold Indicator.macdStart Indicator.macdLine at signals
      rw [signals, ok_bind]
      unfold Indicator.macdLine at lines
      rw [number_places lines]
      exact congrArg Except.ok (points_of_lines _ _ _)

private theorem mapM_move (values : List α) : (pairs values).mapM move = .ok (Indicator.moves values) := by
  induction values with
  | nil => rfl
  | cons a rest ih =>
    cases rest with
    | nil => rfl
    | cons b rest =>
      rw [pairs, List.mapM_cons, ih]
      rfl

private theorem writeStrengths_eq (period : Nat) (average : Move α) {before after : Series α} {moves : List (Move α)}
    {i : Nat}
    (place : before.length = i + 1) (slots : after.length = moves.length) (room : i + 1 + moves.length ≤ Size.most) :
    writeStrengths period average (before ++ after) (moves.zipIdx i) =
      .ok (before ++ (Indicator.blended period average moves).map strengthPoint) := by
  induction moves generalizing average before after i with
  | nil =>
    obtain rfl := List.length_eq_zero_iff.1 slots
    rfl
  | cons move rest ih =>
    cases after with
    | nil => cases slots
    | cons slot after =>
      have inside : i + 1 < (before ++ slot :: after).length := by simp [place]
      rw [List.length_cons] at room
      have written (x : Point α) : (before ++ slot :: after).set (i + 1) x = before ++ [x] ++ after := by
        rw [← place, List.set_append_right _ _ (Nat.le_refl _), Nat.sub_self, List.set_cons_zero, List.append_assoc]
        rfl
      rw [List.zipIdx_cons, writeStrengths]
      simp only [add_eq (by omega : i + 1 ≤ Size.most), ok_bind, put_eq inside, written]
      rw [ih _ (by simp [place]) (Nat.succ.inj slots) (by omega), List.append_assoc]
      rfl

private theorem rsiSeries_eq (period : Nat) (few : values.length < mostWeight) :
    rsiSeries period values = .ok (Indicator.rsiSeries period values) := by
  unfold rsiSeries Indicator.rsiSeries
  rw [List.map_const']
  by_cases enough : 0 < period ∧ period < values.length
  · have fits := lt_most few
    have moved := Indicator.length_moves values
    have seeded : period ≤ (Indicator.moves values).length := by omega
    have all : (Indicator.moves values).length < mostWeight := by omega
    have seat : period < (List.replicate values.length (⟨false, .single gap⟩ : Point α)).length := by
      rw [List.length_replicate]
      exact enough.2
    simp only [if_pos enough, mapM_move, ok_bind, slice_eq (Nat.zero_le period) seeded, put_eq seat,
      number_places all, drop_zipIdx, Nat.zero_add, List.drop_zero]
    rw [if_neg (by omega)]
    generalize Indicator.seedMove period ((Indicator.moves values).take period) = seed
    -- The seed is the last of the points that are there when the loop begins.
    have head := take_set_replicate enough.2 (⟨false, .single gap⟩ : Point α) (strengthPoint seed)
    rw [← List.take_append_drop (period + 1) ((List.replicate _ _).set period (strengthPoint seed)), head,
      writeStrengths_eq period seed (by simp) (by simp; omega) (by rw [List.length_drop]; omega), List.append_assoc]
    rfl
  · simp only [if_neg enough]
    rw [if_pos (by omega), List.map_const']
    rfl

private theorem rocSeries_eq (period : Nat) (few : values.length < mostWeight) :
    rocSeries period values = .ok (Indicator.rocSeries period values) := by
  rw [rocSeries, number_places few, ok_bind, mapM_eq_ok_iff, List.forall₂_iff_get]
  refine ⟨by rw [List.length_zipIdx, Indicator.length_rocSeries], fun i inside there => ?_⟩
  have inside : i < values.length := by simpa using inside
  simp only [List.get_eq_getElem, List.getElem_zipIdx, Nat.zero_add]
  by_cases used : period = 0
  · subst used
    simp only [back?, if_pos (Nat.zero_le i), Nat.sub_zero, element_eq (List.getElem?_eq_getElem inside), ok_bind]
    simp [Indicator.rocSeries]
    rfl
  · have point := Indicator.getElem?_rocSeries period used values i
    rw [List.getElem?_eq_getElem there, List.getElem?_eq_getElem inside, Option.map_some, Option.bind_some] at point
    unfold back?
    by_cases early : i < period
    · rw [if_pos early] at point
      rw [if_neg (Nat.not_le.2 early), Option.some.inj point]
      rfl
    · have back : i - period < values.length := by omega
      rw [if_neg early, List.getElem?_eq_getElem back, Option.map_some] at point
      rw [if_pos (Nat.not_lt.1 early)]
      simp only [element_eq (List.getElem?_eq_getElem back), ok_bind]
      rw [if_pos (by omega), Option.some.inj point]
      rfl

end

section
variable [RootArithmetic α]

def series : Indicator → List α → Step (Series α)
  | .sma n => smaSeries n
  | .ema n => emaSeries n
  | .wma n => wmaSeries n
  | .rsi n => rsiSeries n
  | .roc n => rocSeries n
  | .stddev n => stddevSeries n
  | .macd fast slow signal => macdSeries fast slow signal
  | .bollinger n hundredths => bollingerSeries n hundredths

theorem series_eq (which : Indicator) {values : List α} (few : values.length < mostWeight) :
    series which values = .ok (which.series values) := by
  cases which with
  | sma n => exact smaSeries_eq n few
  | ema n => exact emaSeries_eq n few
  | wma n => exact wmaSeries_eq n few
  | rsi n => exact rsiSeries_eq n few
  | roc n => exact rocSeries_eq n few
  | stddev n => exact stddevSeries_eq n values
  | macd fast slow signal => exact macdSeries_eq fast slow signal few
  | bollinger n hundredths => exact bollingerSeries_eq n hundredths values

end

end Screener.Machine
