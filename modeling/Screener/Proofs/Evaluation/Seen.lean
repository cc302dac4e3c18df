import Screener.Proofs.Evaluation.Reading
import Screener.Proofs.Evaluation.Prepare
import Screener.Proofs.Indicator.Causal
import Screener.Proofs.Resample

/-! How far an evaluation looks. At a base position each timeframe shows the bars up to the current one, and
these alone decide what the operands of the timeframe come to. -/
namespace Screener.Evaluation
open Calendar (Timestamp)
open Screener.Filter (Operand Place)

private theorem narrow_eq (before : Nat → Bool) (size first bound n : Nat) (some_left : 0 < size)
    (inside : first + size ≤ n) (split : ∀ i < n, before i = decide (i < bound)) (reach : bound ≤ first + size) :
    narrow before size first = max first (bound - 1) := by
  induction size, first using narrow.induct before with
  | case1 size first h =>
    rw [narrow, if_pos h]
    omega
  | case2 size first h half ih =>
    have halved : 2 * half ≤ size ∧ size ≤ 2 * half + 1 := by simp only [half]; omega
    have at_half : before (first + half) = decide (first + half < bound) := split _ (by omega)
    rw [narrow, if_neg h]
    change narrow before (size - half) (if before (first + half) then first + half else first) = _
    rw [dite_eq_ite] at ih
    by_cases right : first + half < bound
    · simp only [at_half, right, decide_true, if_true] at ih ⊢
      rw [ih (by omega) (by omega) (by omega)]
      omega
    · simp only [at_half, right, decide_false, Bool.false_eq_true, if_false] at ih ⊢
      exact ih (by omega) (by omega) (by omega)

private theorem countBefore_eq (before : Nat → Bool) (bound n : Nat) (reach : bound ≤ n)
    (split : ∀ i < n, before i = decide (i < bound)) : countBefore before n = bound := by
  unfold countBefore
  by_cases none_at_all : n = 0
  · rw [if_pos none_at_all]
    omega
  · have found := narrow_eq before n 0 bound n (by omega) (by omega) split (by omega)
    have last : before (max 0 (bound - 1)) = decide (max 0 (bound - 1) < bound) := split _ (by omega)
    simp only [if_neg none_at_all, found, last]
    by_cases some_before : max 0 (bound - 1) < bound
    · rw [if_pos (decide_eq_true some_before)]
      omega
    · rw [if_neg (by simpa using some_before)]
      omega

theorem datedBy_eq {bars : List Bar} {time : Timestamp} (ascending : Ascending bars) (i : Nat) :
    datedBy bars time i = decide (i < (visible time bars).length) := by
  induction bars generalizing i with
  | nil => simp [datedBy, visible]
  | cons bar rest ih =>
    obtain ⟨first, others⟩ := List.pairwise_cons.1 ascending
    rw [visible_cons]
    by_cases dated : bar.date.notAfter time
    · cases i with
      | zero => simp [datedBy, dated]
      | succ i => simpa [datedBy, dated] using ih others i
    · cases i with
      | zero => simp [datedBy, dated]
      | succ i =>
        have none_dated : datedBy rest time i = false := by
          unfold datedBy
          cases found : rest[i]? with
          | none => rfl
          | some later =>
            have behind := first later (List.mem_of_getElem? found)
            simpa using fun h => dated (notAfter_trans behind h)
        simpa [datedBy, dated] using none_dated

theorem countBefore_datedBy {bars : List Bar} (ascending : Ascending bars) (time : Timestamp) :
    countBefore (datedBy bars time) bars.length = (visible time bars).length :=
  countBefore_eq _ _ _ (visible_initial time bars).length_le fun i _ => datedBy_eq ascending i

private theorem take_visible (time : Timestamp) (bars : List Bar) :
    bars.take (visible time bars).length = visible time bars :=
  (List.prefix_iff_eq_take.1 (visible_initial time bars)).symm

def fromEnd? (bars : List Bar) (offset : Nat) : Option Nat :=
  if offset < bars.length then some (bars.length - 1 - offset) else none

def readEnd? (shown : Timeframe → List Bar) : Operand → Option Float
  | .constant x => some x
  | .column name place =>
    (fromEnd? (shown place.timeframe) place.offset).bind fun spot =>
      (shown place.timeframe)[spot]?.bind fun bar => (bar.column? name).filter Float.isFinite
  | .indicator which field name place =>
    (fromEnd? (shown place.timeframe) place.offset).bind fun spot =>
      (which.series (Bar.columnValues (shown place.timeframe) name)).reading? spot field

namespace Frame

/-- The bars of a timeframe up to the one that is current at a base position. -/
def seen (frame : Frame) (timeframe : Timeframe) (position : Nat) : List Bar :=
  match frame.aligned? timeframe position with
  | some last => (frame.bars timeframe).take (last + 1)
  | none => []

variable {frame : Frame} {timeframe : Timeframe} {position : Nat}

private theorem aligned?_lt (own : frame.bars frame.history.base = frame.history.bars) {last : Nat}
    (current : frame.aligned? timeframe position = some last) : last < (frame.bars timeframe).length := by
  unfold aligned? at current
  split at current
  · rename_i base
    rw [base, own]
    split at current
    · rename_i inside
      obtain rfl : position = last := Option.some.inj current
      exact inside
    · cases current
  · split at current
    · rename_i row _
      unfold lastDatedBy? at current
      have counted := countBefore_le (datedBy (frame.bars timeframe) row.date) (frame.bars timeframe).length
      split at current
      · simp at current
      · rename_i n found
        obtain rfl : n = last := by simpa using current
        omega
    · simp at current

private theorem fromEnd?_seen (own : frame.bars frame.history.base = frame.history.bars) (place : Place) :
    fromEnd? (frame.seen place.timeframe position) place.offset = frame.position? place position := by
  unfold seen position?
  cases current : frame.aligned? place.timeframe position with
  | none => simp [fromEnd?]
  | some last =>
    have length : ((frame.bars place.timeframe).take (last + 1)).length = last + 1 :=
      List.length_take_of_le (aligned?_lt own current)
    simp only [fromEnd?, length, Option.bind_some, back?]
    split <;> split <;> simp <;> omega

private theorem seen_eq_take {place : Place} {spot : Nat} (found : frame.position? place position = some spot) :
    ∃ n, spot < n ∧ frame.seen place.timeframe position = (frame.bars place.timeframe).take n := by
  unfold position? at found
  unfold seen
  cases current : frame.aligned? place.timeframe position with
  | none => simp [current] at found
  | some last =>
    simp only [current, Option.bind_some, back?] at found
    refine ⟨last + 1, ?_, rfl⟩
    split at found <;> simp at found
    omega

/-- No operand reads a bar behind the current one of its timeframe, nor does any indicator that it names. -/
theorem read?_eq_readEnd? (own : frame.bars frame.history.base = frame.history.bars) (operand : Operand) :
    frame.read? frame.series position operand = readEnd? (frame.seen · position) operand := by
  cases operand with
  | constant x => rfl
  | column name place =>
    simp only [read?, readEnd?, fromEnd?_seen own]
    cases found : frame.position? place position with
    | none => rfl
    | some spot =>
      obtain ⟨n, before, first⟩ := seen_eq_take found
      rw [Option.bind_some, Option.bind_some, first, List.getElem?_take_of_lt before]
  | indicator which field name place =>
    simp only [read?, readEnd?, fromEnd?_seen own]
    cases found : frame.position? place position with
    | none => rfl
    | some spot =>
      obtain ⟨n, before, first⟩ := seen_eq_take found
      rw [Option.bind_some, Option.bind_some, first, Bar.columnValues, List.map_take]
      exact (Indicator.reading?_take which _ field before).symm

theorem seen_base (own : frame.bars frame.history.base = frame.history.bars)
    (inside : position < frame.history.bars.length) :
    frame.seen frame.history.base position = frame.history.bars.take (position + 1) := by
  simp only [seen, aligned?, inside, if_true, own]

theorem seen_of_ascending (other : timeframe ≠ frame.history.base) (ascending : Ascending (frame.bars timeframe))
    {row : Bar} (here : frame.history.bars[position]? = some row) :
    frame.seen timeframe position = visible row.date (frame.bars timeframe) := by
  rw [← take_visible row.date (frame.bars timeframe)]
  simp only [seen, aligned?, other, if_false, here, lastDatedBy?, countBefore_datedBy ascending]
  cases (visible row.date (frame.bars timeframe)).length <;> rfl

end Frame
end Screener.Evaluation
