import Screener.Proofs.Indicator.Averages

/-! Relative strength in exact arithmetic. At each position it is made of Wilder's averages of the gains and of the losses so
far, which are never negative, so it lies between 0 and 100. It does not change when all values are stretched and shifted. -/
namespace Screener.Indicator
open Arithmetic

def change (values : List ℚ) (k : Nat) : ℚ := values.getD (k + 1) 0 - values.getD k 0

/-- Wilder's average of the first `n + k` numbers: the plain mean of the first `n`, and of each further one a share of one
part in `n`. -/
def wilder (n : Nat) (x : Nat → ℚ) : Nat → ℚ
  | 0 => (∑ j ∈ Finset.range n, x j) / n
  | k + 1 => (wilder n x k * (n - 1) + x (n + k)) / n

def averageGain (n : Nat) (values : List ℚ) (i : Nat) : ℚ := wilder n (fun k => max (change values k) 0) (i - n)

def averageLoss (n : Nat) (values : List ℚ) (i : Nat) : ℚ := wilder n (fun k => max (-change values k) 0) (i - n)

private theorem wilder_nonneg {n : Nat} (used : 0 < n) {x : Nat → ℚ} (nonneg : ∀ k, 0 ≤ x k) (k : Nat) :
    0 ≤ wilder n x k := by
  induction k with
  | zero => exact div_nonneg (Finset.sum_nonneg fun j _ => nonneg j) n.cast_nonneg
  | succ k ih =>
    have weight : (0 : ℚ) ≤ n - 1 := sub_nonneg.2 (by exact_mod_cast used)
    exact div_nonneg (add_nonneg (mul_nonneg ih weight) (nonneg _)) n.cast_nonneg

private theorem ofChange_exact (c : ℚ) : Move.ofChange c = ⟨max c 0, max (-c) 0⟩ := by
  have cases_apart : Move.ofChange c =
      if decide (c < 0) then ⟨0, -c⟩ else if decide (0 < c) || false then ⟨c, 0⟩ else ⟨0, 0⟩ := rfl
  rw [cases_apart, Bool.or_false]
  rcases lt_trichotomy c 0 with falling | rfl | rising
  · rw [if_pos (decide_eq_true falling), max_eq_right falling.le, max_eq_left (neg_nonneg.2 falling.le)]
  · rfl
  · rw [if_neg (by simpa using rising.le), if_pos (decide_eq_true rising), max_eq_left rising.le,
      max_eq_right (neg_nonpos.2 rising.le)]

private theorem take_moves {values : List ℚ} {i : Nat} (inside : i < values.length) :
    (moves values).take i = (List.range i).map fun k => ⟨max (change values k) 0, max (-change values k) 0⟩ := by
  refine List.ext_getElem? fun k => ?_
  by_cases early : k < i
  · have here : values[k]? = some (values.getD k 0) := by
      rw [List.getElem?_eq_getElem (by omega), List.getD_eq_getElem _ _ (by omega)]
    have next : values[k + 1]? = some (values.getD (k + 1) 0) := by
      rw [List.getElem?_eq_getElem (by omega), List.getD_eq_getElem _ _ (by omega)]
    rw [List.getElem?_take_of_lt early, getElem?_moves, here, next, List.getElem?_map, List.getElem?_range early]
    exact congrArg some (ofChange_exact (change values k))
  · rw [List.getElem?_take_eq_none (Nat.not_lt.1 early), List.getElem?_eq_none (by simpa using early)]

/-- The averages go on by Wilder's rule, one step for each number after the first `n`. -/
theorem wilderOf_range (n k : Nat) (x : Nat → ℚ) : wilderOf n ((List.range (n + k)).map x) = wilder n x k := by
  induction k with
  | zero =>
    have total : ((List.range n).map x).foldl (· + ·) 0 = ∑ j ∈ Finset.range n, x j := List.sum_eq_foldl.symm
    rw [wilderOf, List.drop_of_length_le (by simp), List.take_of_length_le (by simp), wilder, ← total]
    rfl
  | succ k ih =>
    have seeded : n ≤ ((List.range (n + k)).map x).length := by simp
    rw [wilderOf] at ih
    rw [← Nat.add_assoc, List.range_succ, List.map_append, wilderOf, List.drop_append_of_le_length seeded,
      List.take_append_of_le_length seeded, List.foldl_append, ih]
    rfl

private theorem averagesAt_exact {n i : Nat} (late : n ≤ i) {values : List ℚ} (inside : i < values.length) :
    averagesAt n values i = ⟨averageGain n values i, averageLoss n values i⟩ := by
  have split : i = n + (i - n) := by omega
  rw [averagesAt, take_moves inside, List.map_map, List.map_map, averageGain, averageLoss, ← wilderOf_range, ← wilderOf_range,
    ← split]
  rfl

private theorem strength_exact (gain loss : ℚ) :
    strength ⟨gain, loss⟩ = if loss = 0 then 100 else 100 - 100 / (1 + gain / loss) := by
  have cases_apart : strength ⟨gain, loss⟩ = if (loss == 0) = true then 100 else 100 - 100 / (1 + gain / loss) := rfl
  simp only [cases_apart, beq_iff_eq]

private theorem strength_mem_Icc {gain loss : ℚ} (gain_nonneg : 0 ≤ gain) (loss_nonneg : 0 ≤ loss) :
    strength ⟨gain, loss⟩ ∈ Set.Icc 0 100 := by
  rw [strength_exact]
  split
  · norm_num
  · have ratio : 0 ≤ gain / loss := div_nonneg gain_nonneg loss_nonneg
    have least : 0 ≤ 100 / (1 + gain / loss) := by positivity
    have most : 100 / (1 + gain / loss) ≤ 100 := div_le_self (by norm_num) (by linarith)
    exact ⟨by linarith, by linarith⟩

theorem strength_eq_zero_iff {gain loss : ℚ} (gain_nonneg : 0 ≤ gain) (loss_nonneg : 0 ≤ loss) :
    strength ⟨gain, loss⟩ = 0 ↔ gain = 0 ∧ 0 < loss := by
  rw [strength_exact]
  split
  · rename_i flat
    rw [flat]
    norm_num
  · rename_i lost
    have positive : 0 < loss := lt_of_le_of_ne loss_nonneg (Ne.symm lost)
    have whole : 1 + gain / loss ≠ 0 := by positivity
    rw [sub_eq_zero, eq_div_iff whole, mul_right_eq_self₀]
    simp [lost, positive]

private theorem ofChange_scaled {a : ℚ} (rising : 0 < a) (c : ℚ) :
    Move.ofChange (a * c) = ⟨a * (Move.ofChange c).gain, a * (Move.ofChange c).loss⟩ := by
  rw [ofChange_exact, ofChange_exact, mul_max_of_nonneg _ _ rising.le, mul_max_of_nonneg _ _ rising.le, mul_zero, mul_neg]

private theorem moves_affine {a : ℚ} (rising : 0 < a) (b : ℚ) (values : List ℚ) :
    moves (values.map fun x => a * x + b) = (moves values).map fun move => ⟨a * move.gain, a * move.loss⟩ := by
  refine List.ext_getElem? fun k => ?_
  rw [List.getElem?_map, getElem?_moves, getElem?_moves, List.getElem?_map, List.getElem?_map]
  cases values[k]? with
  | none => rfl
  | some x =>
    cases values[k + 1]? with
    | none => rfl
    | some y =>
      have stretched : a * y + b - (a * x + b) = a * (y - x) := by ring
      exact congrArg some ((congrArg Move.ofChange stretched).trans (ofChange_scaled rising (y - x)))

private theorem wilderOf_scaled (n : Nat) (a : ℚ) (xs : List ℚ) : wilderOf n (xs.map (a * ·)) = a * wilderOf n xs := by
  have seed : ((xs.map (a * ·)).take n).foldl (· + ·) 0 = a * (xs.take n).foldl (· + ·) 0 := by
    rw [← List.sum_eq_foldl, ← List.sum_eq_foldl, ← List.map_take, List.sum_map_mul_left, List.map_id']
  have step (average x : ℚ) : (a * average * (n - 1) + a * x) / n = a * ((average * (n - 1) + x) / n) := by ring
  calc
    wilderOf n (xs.map (a * ·)) = (xs.drop n).foldl (fun average x => (average * (n - 1) + a * x) / n)
        (a * ((xs.take n).foldl (· + ·) 0 / n)) := by
      rw [← mul_div_assoc, ← seed, wilderOf, ← List.map_drop, List.foldl_map]
      rfl
    _ = a * wilderOf n xs := List.foldl_hom (a * ·) fun average x => step average x

private theorem strength_scaled {a : ℚ} (rising : 0 < a) (gain loss : ℚ) :
    strength ⟨a * gain, a * loss⟩ = strength ⟨gain, loss⟩ := by
  have flat : a * loss = 0 ↔ loss = 0 := mul_eq_zero_iff_left rising.ne'
  rw [strength_exact, strength_exact, mul_div_mul_left _ _ rising.ne']
  simp only [flat]

private theorem averagesAt_affine {a : ℚ} (rising : 0 < a) (b : ℚ) (n : Nat) (values : List ℚ) (i : Nat) :
    averagesAt n (values.map fun x => a * x + b) i =
      ⟨a * (averagesAt n values i).gain, a * (averagesAt n values i).loss⟩ := by
  simp only [averagesAt, moves_affine rising, ← List.map_take, List.map_map, ← wilderOf_scaled]
  rfl

private theorem rsiSeries_affine {a : ℚ} (rising : 0 < a) (b : ℚ) {n : Nat} (used : 0 < n) (values : List ℚ) :
    rsiSeries n (values.map fun x => a * x + b) = rsiSeries n values := by
  refine List.ext_getElem? fun i => ?_
  rw [getElem?_rsiSeries used, getElem?_rsiSeries used, averagesAt_affine rising, strength_scaled rising, List.getElem?_map,
    Option.map_map]
  rfl

/-- Relative strength in exact arithmetic. From position `n` on it is 100 where nothing was lost and else as far below 100 as
the ratio of Wilder's averages says; it lies between 0 and 100, is 0 exactly where only losses were made, and is the same
when all values are stretched and shifted. -/
theorem relative_strength_exact {n i : Nat} (used : 0 < n) (late : n ≤ i) {values : List ℚ} (inside : i < values.length) :
    ∃ x, (rsiSeries n values).reading? i .value = some x ∧
      x = (if averageLoss n values i = 0 then 100
        else 100 - 100 / (1 + averageGain n values i / averageLoss n values i)) ∧
      (0 ≤ x ∧ x ≤ 100) ∧ (x = 0 ↔ averageGain n values i = 0 ∧ 0 < averageLoss n values i) ∧
      ∀ a b : ℚ, 0 < a → (rsiSeries n (values.map fun y => a * y + b)).reading? i .value = some x := by
  have gain_nonneg : 0 ≤ averageGain n values i := wilder_nonneg used (fun k => le_max_right _ _) _
  have loss_nonneg : 0 ≤ averageLoss n values i := wilder_nonneg used (fun k => le_max_right _ _) _
  have read : (rsiSeries n values).reading? i .value =
      some (strength ⟨averageGain n values i, averageLoss n values i⟩) := by
    refine reading?_of_single ?_
    rw [getElem?_rsiSeries used, List.getElem?_eq_getElem inside, Option.map_some, if_neg (Nat.not_lt.2 late),
      averagesAt_exact late inside]
  refine ⟨_, read, strength_exact _ _, strength_mem_Icc gain_nonneg loss_nonneg,
    strength_eq_zero_iff gain_nonneg loss_nonneg, fun a b rising => ?_⟩
  rw [rsiSeries_affine rising b used, read]

theorem relative_strength_exact_sample :
    let values : List ℚ := [10, 12, 11, 14]
    0 < 2 ∧ 2 ≤ 3 ∧ 3 < values.length ∧ averageGain 2 values 3 = 2 ∧ averageLoss 2 values 3 = 1 / 4 ∧
      (rsiSeries 2 values).reading? 3 .value = some (100 - 100 / (1 + 2 / (1 / 4))) ∧
      (rsiSeries 2 (values.map fun x => 3 * x + -7)).reading? 3 .value = some (100 - 100 / (1 + 2 / (1 / 4))) := by
  intro values
  have gain : averageGain 2 values 3 = 2 := by decide +kernel
  have loss : averageLoss 2 values 3 = 1 / 4 := by decide +kernel
  obtain ⟨x, read, value, -, -, same⟩ := relative_strength_exact Nat.two_pos (by decide : 2 ≤ 3) (by decide : 3 < values.length)
  rw [gain, loss, if_neg (by norm_num)] at value
  subst value
  exact ⟨Nat.two_pos, by decide, by decide, gain, loss, read, same 3 (-7) (by norm_num)⟩

end Screener.Indicator
