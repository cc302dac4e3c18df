import Screener.Proofs.Evaluation.Work
import Screener.Proofs.Machine.Indicators
import Mathlib.Data.List.Perm.Subperm

/-! Filters as a machine evaluates them. The series that were computed stand in a table, and each is looked up there after
it was put in; the bar that is current is found by halving, and the bars are looked at only where there are some. What a
machine does with a filter follows step by step what evaluating the filter does, and no step of it fails. -/
namespace Screener.Machine
open Screener.Filter (Operand Condition Expression Place)
open Indicator (Memo Key Series)
open Calendar (Timestamp)
open Evaluation (Frame Verdict Call Answer back?)

def minHistory : Indicator → Step Nat
  | .sma n | .ema n | .wma n | .stddev n | .bollinger n _ => return max n 1
  | .rsi n | .roc n => return Size.add n 1
  | .macd fast slow signal => do return Size.add (max fast slow) (← sub (max signal 1) 1)

def lookback : Operand → Step Nat
  | .column _ place => return Size.add place.offset 1
  | .indicator which _ _ place => do return Size.add place.offset (← minHistory which)
  | .constant _ => return 0

def window (e : Expression) : Step Nat := do
  let lookbacks ← e.conditions.mapM fun c => do return max (← lookback c.left) (← lookback c.right)
  return lookbacks.foldl max 1

private theorem minHistory_eq (which : Indicator) : minHistory which = .ok which.minHistory := by
  cases which with
  | macd fast slow signal =>
    rw [minHistory, sub_eq (Nat.le_max_right signal 1)]
    rfl
  | sma | ema | wma | rsi | roc | stddev | bollinger => rfl

private theorem lookback_eq (operand : Operand) : lookback operand = .ok operand.lookback := by
  cases operand with
  | indicator which field name place =>
    rw [lookback, minHistory_eq]
    rfl
  | column | constant => rfl

theorem window_eq (e : Expression) : window e = .ok e.window := by
  have each : e.conditions.mapM (fun c => do return max (← lookback c.left) (← lookback c.right)) =
      (.ok (e.conditions.map Condition.lookback) : Step (List Nat)) := by
    refine mapM_eq_ok fun c _ => ?_
    rw [lookback_eq, lookback_eq]
    rfl
  rw [window, each]
  rfl

def narrow (before : Nat → Step Bool) (size first : Nat) : Step Nat :=
  if size ≤ 1 then return first
  else do
    let half := size / 2
    let middle ← add first half
    narrow before (size - half) (if ← before middle then middle else first)
termination_by size
decreasing_by omega

def countBefore (before : Nat → Step Bool) (size : Nat) : Step Nat :=
  if size = 0 then return 0
  else do
    let last ← narrow before size 0
    if ← before last then add last 1 else return last

def datedBy (bars : List Bar) (time : Timestamp) (position : Nat) : Step Bool := do
  return (← element bars position).date.notAfter time

def aligned? (frame : Frame) (timeframe : Timeframe) (position : Nat) : Step (Option Nat) :=
  if timeframe = frame.history.base then
    return if position < frame.history.bars.length then some position else none
  else
    match frame.history.bars[position]? with
    | some bar => do
      let bars := frame.bars timeframe
      return back? (← countBefore (datedBy bars bar.date) bars.length) 1
    | none => return none

def position? (frame : Frame) (place : Place) (position : Nat) : Step (Option Nat) := do
  return (← aligned? frame place.timeframe position).bind (back? · place.offset)

section
variable {before : Nat → Step Bool} {known : Nat → Bool} {size first : Nat}

private theorem narrow_eq (fits : first + size ≤ Size.most) (each : ∀ i < first + size, before i = .ok (known i)) :
    narrow before size first = .ok (Evaluation.narrow known size first) := by
  induction size using Nat.strongRecOn generalizing first with
  | ind size ih =>
    rw [narrow, Evaluation.narrow]
    split
    · rfl
    · rename_i several
      have half : size / 2 ≤ size := Nat.div_le_self size 2
      have middle : first + size / 2 < first + size := by omega
      simp only [add_eq (by omega : first + size / 2 ≤ Size.most), ok_bind, each _ middle]
      split
      · exact ih _ (by omega) (by omega) fun i less => each i (by omega)
      · exact ih _ (by omega) (by omega) fun i less => each i (by omega)

private theorem countBefore_eq (fits : size ≤ Size.most) (each : ∀ i < size, before i = .ok (known i)) :
    countBefore before size = .ok (Evaluation.countBefore known size) := by
  unfold countBefore Evaluation.countBefore
  split
  · rfl
  · rename_i some_left
    have inside := Evaluation.narrow_lt known size 0 (by omega)
    rw [Nat.zero_add] at inside
    rw [narrow_eq (by omega) (by simpa using each)]
    simp only [ok_bind, each _ inside]
    split
    · exact add_eq (by omega)
    · rfl

end

section
variable {frame : Frame}

/-- No timeframe has as many bars as there are weights. -/
def Few (frame : Frame) : Prop := ∀ timeframe, (frame.bars timeframe).length < mostWeight

private theorem datedBy_eq {bars : List Bar} (time : Timestamp) {i : Nat} (inside : i < bars.length) :
    datedBy bars time i = .ok (Evaluation.datedBy bars time i) := by
  have here := List.getElem?_eq_getElem inside
  unfold datedBy Evaluation.datedBy
  rw [element_eq here, here]
  rfl

private theorem aligned?_eq (few : Few frame) (timeframe : Timeframe) (position : Nat) :
    aligned? frame timeframe position = .ok (frame.aligned? timeframe position) := by
  unfold aligned? Frame.aligned?
  split
  · rfl
  · cases frame.history.bars[position]? with
    | none => rfl
    | some bar =>
      have fits := Nat.le_of_succ_le (lt_most (few timeframe))
      simp only [countBefore_eq fits fun i inside => datedBy_eq bar.date inside, ok_bind, Evaluation.lastDatedBy?]
      generalize Evaluation.countBefore (Evaluation.datedBy (frame.bars timeframe) bar.date) _ = count
      cases count <;> rfl

private theorem position?_eq (few : Few frame) (place : Place) (position : Nat) :
    position? frame place position = .ok (frame.position? place position) := by
  rw [position?, aligned?_eq few]
  rfl

end

abbrev Run (α : Type) := StateT Memo Step α

/-- The series of a key. It is computed and put into the table if it is not there, and then it is looked up. -/
def ask (key : Key) (values : Unit → List Float) : Run (Series Float) := fun memo => do
  let memo ← match memo.find? key with
    | some _ => pure memo
    | none => do
      let computed ← series key.indicator (values ())
      pure ⟨memo.entries ++ [(key, computed)], ← add memo.computations 1⟩
  match memo.find? key with
  | some found => return (found, memo)
  | none => .error .badKey

def value? (frame : Frame) (operand : Operand) (position : Nat) : Run (Option Float) :=
  match operand with
  | .constant x => return some x
  | .column name place => do
    match ← position? frame place position with
    | some spot =>
      match (frame.bars place.timeframe)[spot]? with
      | some bar => return (bar.column? name).filter Float.isFinite
      | none => return none
    | none => return none
  | .indicator which field name place => do
    match ← position? frame place position with
    | none => return none
    | some spot =>
      let series ← ask ⟨which, name, place.timeframe⟩ fun _ => Bar.columnValues (frame.bars place.timeframe) name
      return series.reading? spot field

def meets (frame : Frame) (position : Nat) (c : Condition) : Run Bool := do
  match ← value? frame c.left position with
  | none => return false
  | some left =>
    match ← value? frame c.right position with
    | none => return false
    | some right => return Evaluation.holds c.comparison left right

def matched (frame : Frame) (e : Expression) (position : Nat) : Run Bool :=
  match e.logic with
  | .all => e.conditions.allM (meets frame position)
  | .any => e.conditions.anyM (meets frame position)

def outcome (frame : Frame) (position : Nat) (c : Condition) : Run Evaluation.Outcome := do
  let left ← value? frame c.left position
  let right ← value? frame c.right position
  return Evaluation.decideOn c left right

def explain (frame : Frame) (e : Expression) (position : Nat) : Run Verdict := do
  let outcomes ← e.conditions.mapM (outcome frame position)
  let matched :=
    match e.logic with
    | .all => outcomes.all (·.result)
    | .any => outcomes.any (·.result)
  return ⟨matched, outcomes⟩

def perform (frame : Frame) (e : Expression) : Call → Run Answer
  | .operand operand position => return .value (← value? frame operand position)
  | .condition c position => return .decision (← meets frame position c)
  | .filter position => return .decision (← matched frame e position)
  | .explanation position => return .verdict (← explain frame e position)

def answers (frame : Frame) (e : Expression) (calls : List Call) : Step (List Answer) := do
  let (given, _) ← calls.mapM (perform frame e) Memo.empty
  return given

/-- The table has one series for each of its keys, and no other keys than these. -/
structure Holds (keys : List Key) (memo : Memo) : Prop where
  tidy : memo.Tidy
  among : memo.keys ⊆ keys

/-- The run of the machine comes to what the computation comes to, and its table stays within these keys. -/
def Follows {α : Type} (keys : List Key) (run : Run α) (plain : StateM Memo α) : Prop :=
  ∀ memo, Holds keys memo → run memo = .ok (plain memo) ∧ Holds keys (plain memo).2

namespace Follows
variable {α β : Type} {keys : List Key}

theorem pure (x : α) : Follows keys (Pure.pure x) (Pure.pure x) := fun _ holds => ⟨rfl, holds⟩

theorem bind {run : Run α} {plain : StateM Memo α} {next : α → Run β} {after : α → StateM Memo β}
    (first : Follows keys run plain) (second : ∀ x, Follows keys (next x) (after x)) :
    Follows keys (run >>= next) (plain >>= after) := by
  intro memo holds
  obtain ⟨value, kept⟩ := first memo holds
  have continued : (run >>= next) memo = run memo >>= fun result => next result.1 result.2 := rfl
  rw [continued, value, ok_bind]
  exact second _ _ kept

theorem step {s : Step α} {x : α} {next : α → Run β} {plain : StateM Memo β} (done : s = .ok x)
    (follows : Follows keys (next x) plain) : Follows keys (liftM s >>= next) plain := by
  subst done
  exact follows

theorem ask {key : Key} {values : Unit → List Float} (member : key ∈ keys) (room : keys.length ≤ Size.most)
    (few : (values ()).length < mostWeight) : Follows keys (Machine.ask key values) (Memo.ask key values) := by
  intro memo holds
  have kept : Holds keys (Memo.ask key values memo).2 := by
    refine ⟨holds.tidy.ask key values, fun other there => ?_⟩
    rcases (Memo.mem_keys_ask key values memo other).1 there with known | rfl
    · exact holds.among known
    · exact member
  refine ⟨?_, kept⟩
  unfold Machine.ask Memo.ask
  cases known : memo.find? key with
  | some found =>
    simp only [known, pure_bind]
    rfl
  | none =>
    -- The key is none of those in the table, and all of them are among those that there is room for.
    have fresh : (key :: memo.keys).Nodup :=
      List.nodup_cons.2 ⟨(Memo.find?_eq_none_iff memo key).1 known, holds.tidy.distinct⟩
    have inside := (List.subperm_of_subset fresh (List.cons_subset.2 ⟨member, holds.among⟩)).length_le
    have counted : memo.computations + 1 ≤ Size.most := by
      rw [holds.tidy.counted]
      simpa [Memo.size, Memo.keys] using Nat.le_trans inside room
    have there := memo.find?_append key key (key.indicator.series (values ())) (memo.computations + 1) known
    rw [if_pos rfl] at there
    simp only [series_eq key.indicator few, ok_bind, add_eq counted, there, pure_bind]
    rfl

variable {f : α → Run β} {g : α → StateM Memo β} {p : α → Run Bool} {q : α → StateM Memo Bool}

theorem mapM {xs : List α} (each : ∀ x ∈ xs, Follows keys (f x) (g x)) :
    Follows keys (xs.mapM f) (xs.mapM g) := by
  induction xs with
  | nil => exact pure []
  | cons x rest ih =>
    rw [List.mapM_cons, List.mapM_cons]
    have others := ih fun y member => each y (List.mem_cons_of_mem x member)
    exact (each x List.mem_cons_self).bind fun _ => others.bind fun _ => pure _

theorem allM {xs : List α} (each : ∀ x ∈ xs, Follows keys (p x) (q x)) :
    Follows keys (xs.allM p) (xs.allM q) := by
  induction xs with
  | nil => exact pure true
  | cons x rest ih =>
    refine (each x List.mem_cons_self).bind fun holds => ?_
    cases holds with
    | false => exact pure false
    | true => exact ih fun y member => each y (List.mem_cons_of_mem x member)

theorem anyM {xs : List α} (each : ∀ x ∈ xs, Follows keys (p x) (q x)) :
    Follows keys (xs.anyM p) (xs.anyM q) := by
  induction xs with
  | nil => exact pure false
  | cons x rest ih =>
    refine (each x List.mem_cons_self).bind fun holds => ?_
    cases holds with
    | false => exact ih fun y member => each y (List.mem_cons_of_mem x member)
    | true => exact pure true

end Follows

section
variable {frame : Frame} {keys : List Key}

private theorem follows_value? (few : Few frame) (room : keys.length ≤ Size.most) {operand : Operand}
    (listed : ∀ key ∈ operand.key?, key ∈ keys) (position : Nat) :
    Follows keys (value? frame operand position) (frame.value? operand position) := by
  cases operand with
  | constant x => exact .pure _
  | column name place =>
    refine .step (position?_eq few place position) ?_
    simp only [Frame.value?]
    generalize frame.position? place position = spot
    cases spot with
    | none => exact .pure none
    | some spot =>
      dsimp only
      generalize (frame.bars place.timeframe)[spot]? = bar
      cases bar <;> exact .pure _
  | indicator which field name place =>
    refine .step (position?_eq few place position) ?_
    simp only [Frame.value?]
    generalize frame.position? place position = spot
    cases spot with
    | none => exact .pure none
    | some spot =>
      have values : (Bar.columnValues (frame.bars place.timeframe) name).length < mostWeight := by
        rw [Bar.columnValues, List.length_map]
        exact few place.timeframe
      exact .bind (.ask (listed ⟨which, name, place.timeframe⟩ rfl) room values) fun _ => .pure _

def Listed (keys : List Key) (c : Condition) : Prop := ∀ operand ∈ c.operands, ∀ key ∈ operand.key?, key ∈ keys

variable {c : Condition} {e : Expression}

theorem Listed.left (listed : Listed keys c) : ∀ key ∈ c.left.key?, key ∈ keys := listed _ List.mem_cons_self

theorem Listed.right (listed : Listed keys c) : ∀ key ∈ c.right.key?, key ∈ keys :=
  listed _ (List.mem_cons_of_mem _ List.mem_cons_self)

private theorem follows_meets (few : Few frame) (room : keys.length ≤ Size.most) (listed : Listed keys c)
    (position : Nat) : Follows keys (meets frame position c) (frame.meets position c) := by
  refine (follows_value? few room listed.left position).bind fun left => ?_
  cases left with
  | none => exact .pure false
  | some left =>
    refine (follows_value? few room listed.right position).bind fun right => ?_
    cases right with
    | none => exact .pure false
    | some right => exact .pure _

private theorem follows_outcome (few : Few frame) (room : keys.length ≤ Size.most) (listed : Listed keys c)
    (position : Nat) : Follows keys (outcome frame position c) (frame.outcome position c) :=
  (follows_value? few room listed.left position).bind fun _ =>
    (follows_value? few room listed.right position).bind fun _ => .pure _

theorem follows_matched (few : Few frame) (room : keys.length ≤ Size.most) (listed : ∀ c ∈ e.conditions, Listed keys c)
    (position : Nat) : Follows keys (matched frame e position) (frame.matched e position) := by
  unfold matched Frame.matched
  cases e.logic with
  | all => exact .allM fun c member => follows_meets few room (listed c member) position
  | any => exact .anyM fun c member => follows_meets few room (listed c member) position

theorem follows_explain (few : Few frame) (room : keys.length ≤ Size.most) (listed : ∀ c ∈ e.conditions, Listed keys c)
    (position : Nat) : Follows keys (explain frame e position) (frame.explain e position) :=
  (Follows.mapM fun c member => follows_outcome few room (listed c member) position).bind fun _ => .pure _

private theorem follows_perform (few : Few frame) (room : keys.length ≤ Size.most)
    (listed : ∀ c ∈ e.conditions, Listed keys c)
    {call : Call} (handed : ∀ operand ∈ call.handed, ∀ key ∈ operand.key?, key ∈ keys) :
    Follows keys (perform frame e call) (frame.perform e call) := by
  cases call with
  | operand x position =>
    exact (follows_value? few room (handed x List.mem_cons_self) position).bind fun _ => .pure _
  | condition c position => exact (follows_meets few room handed position).bind fun _ => .pure _
  | filter position => exact (follows_matched few room listed position).bind fun _ => .pure _
  | explanation position => exact (follows_explain few room listed position).bind fun _ => .pure _

end

section
variable {frame : Frame} {e : Expression}

def keysOf (operands : List Operand) : List Key := operands.filterMap Operand.key?

private theorem listed_keysOf {operands : List Operand} {operand : Operand} (member : operand ∈ operands) :
    ∀ key ∈ operand.key?, key ∈ keysOf operands := fun _ own => List.mem_filterMap.2 ⟨operand, member, own⟩

private theorem length_operands (e : Expression) : e.operands.length ≤ 2 * Filter.mostConditions := by
  have counted : e.operands.length = e.conditions.length * 2 := by
    simp [Expression.operands, List.length_flatMap, Condition.operands]
  have most := e.count_range.2
  omega

theorem length_keysOf (e : Expression) (others : List Operand) :
    (keysOf (e.operands ++ others)).length ≤ 2 * Filter.mostConditions + others.length := by
  refine Nat.le_trans (List.length_filterMap_le _ _) ?_
  rw [List.length_append]
  exact Nat.add_le_add_right (length_operands e) _

theorem listed_conditions (e : Expression) (others : List Operand) :
    ∀ c ∈ e.conditions, Listed (keysOf (e.operands ++ others)) c := fun c member _ own =>
  listed_keysOf (List.mem_append_left others (List.mem_flatMap.2 ⟨c, member, own⟩))

theorem holds_empty (keys : List Key) : Holds keys .empty := ⟨Memo.tidy_empty, List.nil_subset keys⟩

/-- Calls that hand in no operands but those of the filter and others that there is room for. -/
theorem answers_eq (few : Few frame) {others : List Operand} {calls : List Call}
    (room : 2 * Filter.mostConditions + others.length ≤ Size.most)
    (handed : ∀ call ∈ calls, call.handed ⊆ e.operands ++ others) :
    answers frame e calls = .ok (frame.answers e calls) := by
  have enough := Nat.le_trans (length_keysOf e others) room
  have each : ∀ call ∈ calls, Follows (keysOf (e.operands ++ others)) (perform frame e call) (frame.perform e call) :=
    fun call member => follows_perform few enough (listed_conditions e others) fun operand own =>
      listed_keysOf (handed call member own)
  rw [answers, (Follows.mapM each .empty (holds_empty _)).1]
  rfl

end

end Screener.Machine
