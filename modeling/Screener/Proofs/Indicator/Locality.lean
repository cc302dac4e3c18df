import Screener.Proofs.Indicator.Validity

/-! Which values a point is computed from. A windowed indicator reads the last values up to a position and the change
reads two of them; what lies elsewhere changes nothing, whatever the arithmetic is. -/
namespace Screener.Indicator
open Arithmetic
variable {α β : Type}

/-- How many places before a position the values lie that its point is computed from. The indicators that go on counting
read all values so far. -/
def reach? : Indicator → Option (List Nat)
  | .sma n | .wma n | .stddev n | .bollinger n _ => some (List.range n)
  | .roc n => some [0, n]
  | .ema _ | .rsi _ | .macd _ _ _ => none

def earlier? (values : List α) (i back : Nat) : Option α := if back ≤ i then values[i - back]? else none

/-- At two positions the same is read, also as to which values are not there yet. -/
def SameReads (reach : List Nat) (xs : List α) (i : Nat) (ys : List α) (j : Nat) : Prop :=
  ∀ back ∈ reach, earlier? xs i back = earlier? ys j back

namespace SameReads

theorem symm {reach : List Nat} {xs ys : List α} {i j : Nat} (same : SameReads reach xs i ys j) :
    SameReads reach ys j xs i :=
  fun back member => (same back member).symm

private theorem le_of_le {reach : List Nat} {xs ys : List α} {i j back : Nat} (same : SameReads reach xs i ys j)
    (member : back ∈ reach) (inside : i < xs.length) (enough : back ≤ i) : back ≤ j := by
  refine Classical.byContradiction fun short => ?_
  have read := same back member
  rw [earlier?, earlier?, if_pos enough, if_neg short, List.getElem?_eq_none_iff] at read
  omega

theorem le_iff {reach : List Nat} {xs ys : List α} {i j back : Nat} (same : SameReads reach xs i ys j)
    (member : back ∈ reach) (inside : i < xs.length) (inside' : j < ys.length) : back ≤ i ↔ back ≤ j :=
  ⟨same.le_of_le member inside, same.symm.le_of_le member inside'⟩

private theorem getElem?_eq {reach : List Nat} {xs ys : List α} {i j back : Nat} (same : SameReads reach xs i ys j)
    (member : back ∈ reach) (enough : back ≤ i) (enough' : back ≤ j) : xs[i - back]? = ys[j - back]? := by
  have read := same back member
  rwa [earlier?, earlier?, if_pos enough, if_pos enough'] at read

theorem set {reach : List Nat} (xs : List α) {g i : Nat} (x : α) (unread : ∀ back ∈ reach, i ≠ g + back) :
    SameReads reach (xs.set g x) i xs i := by
  intro back member
  unfold earlier?
  split
  · have elsewhere : g ≠ i - back := by
      have apart := unread back member
      omega
    exact List.getElem?_set_ne elsewhere
  · rfl

private theorem lastValues_eq {n i j : Nat} {xs ys : List α} (same : SameReads (List.range n) xs i ys j)
    (full : n ≤ i + 1) (full' : n ≤ j + 1) : lastValues n i xs = lastValues n j ys := by
  apply List.ext_getElem?
  intro k
  by_cases within : k < n
  · -- What is `k` places behind the start of a window is `n - 1 - k` places before its end.
    have read := same.getElem?_eq (List.mem_range.2 (by omega : n - 1 - k < n)) (by omega) (by omega)
    rw [lastValues, lastValues, List.getElem?_drop, List.getElem?_drop, List.getElem?_take_of_lt (by omega),
      List.getElem?_take_of_lt (by omega), (by omega : i + 1 - n + k = i - (n - 1 - k)),
      (by omega : j + 1 - n + k = j - (n - 1 - k)), read]
  · rw [List.getElem?_eq_none (by simp [lastValues]; omega), List.getElem?_eq_none (by simp [lastValues]; omega)]

end SameReads

/-- What `f` gives at a position depends on the values in reach of it only. -/
def Local (reach : List Nat) (f : List α → List β) : Prop :=
  ∀ xs ys i j, i < xs.length → j < ys.length → SameReads reach xs i ys j → (f xs)[i]? = (f ys)[j]?

theorem Local.getElem?_set {reach : List Nat} {f : List α → List β} (isLocal : Local reach f)
    (length : ∀ xs, (f xs).length = xs.length) (xs : List α) {g i : Nat} (x : α)
    (unread : ∀ back ∈ reach, i ≠ g + back) : (f (xs.set g x))[i]? = (f xs)[i]? := by
  by_cases inside : i < xs.length
  · exact isLocal _ _ i i (by simpa using inside) inside (SameReads.set xs x unread)
  · have outside : xs.length ≤ i := Nat.not_lt.1 inside
    rw [List.getElem?_eq_none (by simpa [length] using outside), List.getElem?_eq_none (by simpa [length] using outside)]

theorem getElem?_trailing_full {n i : Nat} (used : 0 < n) (full : n ≤ i + 1) (early : Point α)
    (point : List α → Point α) (values : List α) :
    (trailing n early point values)[i]? = values[i]?.map fun _ => point (lastValues n i values) := by
  rw [getElem?_trailing, if_neg (by omega), window_eq_lastValues full]

theorem smaSeries_eq [Arithmetic α] {n : Nat} (used : 0 < n) :
    (smaSeries n : List α → Series α) =
      trailing n ⟨false, .single zero⟩ fun window => ⟨true, .single (sum window / ofNat n)⟩ :=
  funext fun _ => if_neg (Nat.pos_iff_ne_zero.1 used)

private theorem local_trailing {n : Nat} (used : 0 < n) (early : Point α) (point : List α → Point α) :
    Local (List.range n) (trailing n early point) := by
  intro xs ys i j inside inside' same
  have filled : n - 1 ≤ i ↔ n - 1 ≤ j := same.le_iff (List.mem_range.2 (by omega)) inside inside'
  have here : xs[i]? = ys[j]? := same.getElem?_eq (List.mem_range.2 used) (Nat.zero_le i) (Nat.zero_le j)
  by_cases full : n ≤ i + 1
  · have full' : n ≤ j + 1 := by omega
    rw [getElem?_trailing_full used full, getElem?_trailing_full used full',
      same.lastValues_eq full full', here]
  · rw [getElem?_trailing, getElem?_trailing, if_pos (by omega), if_pos (by omega), here]

private theorem local_rocSeries [Arithmetic α] {n : Nat} (used : 0 < n) :
    Local [0, n] (rocSeries n : List α → Series α) := by
  intro xs ys i j inside inside' same
  have filled : n ≤ i ↔ n ≤ j := same.le_iff (by simp) inside inside'
  have current : xs[i]? = ys[j]? := same.getElem?_eq (by simp) (Nat.zero_le i) (Nat.zero_le j)
  rw [getElem?_rocSeries n (by omega), getElem?_rocSeries n (by omega)]
  by_cases early : i < n
  · rw [if_pos early, if_pos (by omega), current]
  · have base : xs[i - n]? = ys[j - n]? := same.getElem?_eq (by simp) (by omega) (by omega)
    rw [if_neg early, if_neg (by omega), current, base]

private theorem local_series [RootArithmetic α] {which : Indicator} {reach : List Nat}
    (windowed : which.reach? = some reach)
    (proper : which.Proper) : Local reach (which.series : List α → Series α) := by
  cases which with
  | sma n =>
    cases windowed
    change Local (List.range n) (smaSeries n)
    rw [smaSeries_eq proper]
    exact local_trailing proper _ _
  | wma n =>
    cases windowed
    exact local_trailing proper unavailable fun window => finitePoint (weightedMean window)
  | stddev n =>
    cases windowed
    exact local_trailing proper unavailable fun window => finitePoint (deviation window)
  | bollinger n hundredths =>
    cases windowed
    exact local_trailing proper ⟨false, .bands gap gap gap⟩ (bandsPoint hundredths)
  | roc n =>
    cases windowed
    exact local_rocSeries proper
  | ema | rsi | macd => cases windowed

/-- A windowed indicator forgets what is out of its reach. Where two lists show the same values, the last ones or the two
of a change, it gives the same point, wherever that is and whatever lies around; and another value in a list changes only
the points that it is in reach of. -/
theorem series_forgets [RootArithmetic α] {which : Indicator} {reach : List Nat} (windowed : which.reach? = some reach)
    (proper : which.Proper) :
    (∀ (xs ys : List α) i j, i < xs.length → j < ys.length → SameReads reach xs i ys j →
      ∃ point, (which.series xs)[i]? = some point ∧ (which.series ys)[j]? = some point) ∧
    ∀ (xs : List α) g x i, (∀ back ∈ reach, i ≠ g + back) →
      (which.series (xs.set g x))[i]? = (which.series xs)[i]? := by
  constructor
  · intro xs ys i j inside inside' same
    have there : i < (which.series xs).length := by rwa [length_series proper]
    have found := List.getElem?_eq_getElem there
    exact ⟨_, found, (local_series windowed proper xs ys i j inside inside' same).symm.trans found⟩
  · intro xs g x i unread
    exact (local_series windowed proper).getElem?_set (length_series proper) xs x unread

theorem series_forgets_sample :
    let values : List Float := [1.0, 0.0 / 0.0, 3.0, 5.0]
    (Indicator.sma 2).reach? = some [0, 1] ∧ (Indicator.sma 2).Proper ∧ SameReads [0, 1] values 3 [3.0, 5.0] 1 ∧
      (∃ point, ((Indicator.sma 2).series values)[3]? = some point ∧
        ((Indicator.sma 2).series [3.0, 5.0])[1]? = some point) ∧
      ((Indicator.sma 2).series (values.set 1 (1.0 / 0.0)))[3]? = ((Indicator.sma 2).series values)[3]? ∧
      (Indicator.roc 2).reach? = some [0, 2] ∧ (Indicator.roc 2).Proper ∧
      ((Indicator.roc 2).series (values.set 2 7.0))[3]? = ((Indicator.roc 2).series values)[3]? := by
  intro values
  have window : (Indicator.sma 2).reach? = some [0, 1] := rfl
  have pair : (Indicator.roc 2).reach? = some [0, 2] := rfl
  have same : SameReads [0, 1] values 3 [3.0, 5.0] 1 := by simp [SameReads, earlier?, values]
  have used : 0 < 2 := Nat.two_pos
  obtain ⟨equal, unchanged⟩ := series_forgets (α := Float) window used
  exact ⟨window, used, same, equal values _ 3 1 (by decide) (by decide) same, unchanged values 1 _ 3 (by decide),
    pair, used, (series_forgets pair used).2 values 2 _ 3 (by decide)⟩

end Screener.Indicator
