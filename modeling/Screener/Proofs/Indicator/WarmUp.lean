import Screener.Proofs.Indicator.Causal

/-! How much history an indicator takes: none of its points counts before the values that it needs are there,
whatever its parameters and the arithmetic are. -/
namespace Screener.Indicator
open Arithmetic
variable {α : Type}

theorem getElem?_trailing (period : Nat) (early : Point α) (point : List α → Point α) (values : List α) (i : Nat) :
    (trailing period early point values)[i]? = values[i]?.map fun _ =>
      if period = 0 ∨ i + 1 < period then early else point ((values.drop (i + 1 - period)).take period) := by
  by_cases inside : i < values.length <;> simp [trailing, inside]

theorem getElem?_pointsFrom (first : Nat) (outputs : List (Output α)) (i : Nat) :
    (pointsFrom first outputs)[i]? = outputs[i]?.map fun output => ⟨first ≤ i, output⟩ := by
  simp [pointsFrom, Function.comp_def]

theorem getElem?_rsiSeries_early [Arithmetic α] {period i : Nat} (values : List α) (early : i < period) :
    (rsiSeries period values)[i]? = values[i]?.map fun _ => ⟨false, .single gap⟩ := by
  unfold rsiSeries
  split
  · exact List.getElem?_map
  · have inside : i < values.length := by omega
    simp [List.getElem?_append, early, inside]

def SilentBefore (start : Nat) (series : Series α) : Prop :=
  ∀ i < start, ∀ point ∈ series[i]?, point.valid = false

namespace SilentBefore

theorem mono {m n : Nat} {series : Series α} (silent : SilentBefore n series) (less : m ≤ n) :
    SilentBefore m series :=
  fun i before => silent i (Nat.lt_of_lt_of_le before less)

theorem guarded {n : Nat} {series : Series α} (idle : Prop) [Decidable idle]
    (silent : ¬idle → SilentBefore n series) : SilentBefore n (if idle then [] else series) := by
  split
  · intro i _ point found
    simp at found
  · exact silent (by assumption)

theorem trailing (period : Nat) (early : Point α) (idle : early.valid = false) (point : List α → Point α)
    (values : List α) : SilentBefore (max period 1 - 1) (trailing period early point values) := by
  intro i before p found
  rw [getElem?_trailing, if_pos (by omega)] at found
  obtain ⟨_, -, rfl⟩ := Option.map_eq_some_iff.1 found
  exact idle

theorem pointsFrom (first : Nat) (outputs : List (Output α)) : SilentBefore first (pointsFrom first outputs) := by
  intro i before p found
  rw [getElem?_pointsFrom] at found
  obtain ⟨output, -, rfl⟩ := Option.map_eq_some_iff.1 found
  exact decide_eq_false (Nat.not_le.2 before)

theorem rsiSeries [Arithmetic α] (period : Nat) (values : List α) :
    SilentBefore period (rsiSeries period values) := by
  intro i before p found
  rw [getElem?_rsiSeries_early values before] at found
  obtain ⟨_, -, rfl⟩ := Option.map_eq_some_iff.1 found
  rfl

theorem rocSeries [Arithmetic α] (period : Nat) (values : List α) :
    SilentBefore period (rocSeries period values) := by
  intro i before p found
  rw [getElem?_rocSeries period (by omega), if_pos before] at found
  obtain ⟨_, -, rfl⟩ := Option.map_eq_some_iff.1 found
  rfl

theorem series [RootArithmetic α] (which : Indicator) (values : List α) :
    SilentBefore (which.minHistory - 1) (which.series values) := by
  cases which with
  | sma n => exact guarded _ fun used => trailing n _ rfl _ values
  | ema n => exact guarded _ fun used => (pointsFrom (n - 1) _).mono (by simp only [minHistory]; omega)
  | wma n => exact trailing n unavailable rfl (fun window => finitePoint (weightedMean window)) values
  | stddev n => exact trailing n unavailable rfl (fun window => finitePoint (deviation window)) values
  | bollinger n hundredths => exact trailing n _ rfl _ values
  | rsi n => exact (rsiSeries n values).mono (Nat.sub_le_of_le_add (Size.add_le n 1))
  | roc n => exact (rocSeries n values).mono (Nat.sub_le_of_le_add (Size.add_le n 1))
  | macd fast slow signal =>
    refine guarded _ fun used => (pointsFrom (Size.add (macdStart fast slow) (signal - 1)) _).mono ?_
    -- A sum that does not fit stays at the greatest count, so the start is never more than one below the history.
    simp only [minHistory, macdStart, Size.add]
    omega

end SilentBefore

theorem reading?_of_early [RootArithmetic α] (which : Indicator) (values : List α) (field : Field) {i : Nat}
    (early : i + 1 < which.minHistory) : (which.series values).reading? i field = none := by
  unfold Series.reading?
  cases found : (which.series values)[i]? with
  | none => rfl
  | some point =>
    have idle := SilentBefore.series which values i (by omega) point found
    simp [idle]

end Screener.Indicator
