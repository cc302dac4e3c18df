import Screener.Proofs.Evaluation.Calls
import Mathlib.Data.List.Induction

/-! What evaluating computes. The series of an indicator is computed when an operand is first read that needs it, and
never again; which operands a call reads is settled by the values alone. So the memo after any calls is known from the
calls, in whatever order they were made. -/
namespace Screener
open Screener.Filter (Operand Place Condition Expression)
open Indicator (Memo Key Series)

namespace Indicator.Memo

def keys (memo : Memo) : List Key := memo.entries.map (·.1)

structure Tidy (memo : Memo) : Prop where
  counted : memo.computations = memo.size
  distinct : memo.keys.Nodup

theorem tidy_empty : empty.Tidy := ⟨rfl, .nil⟩

theorem find?_eq_none_iff (memo : Memo) (key : Key) : memo.find? key = none ↔ key ∉ memo.keys := by
  rw [find?, List.lookup_eq_none_iff, keys, List.mem_map, not_exists]
  refine forall_congr' fun entry => ?_
  rw [not_and, bne_iff_ne, ne_eq, eq_comm]

variable (key : Key) (values : Unit → List Float)

theorem mem_keys_ask (memo : Memo) (other : Key) :
    other ∈ (ask key values memo).2.keys ↔ other ∈ memo.keys ∨ other = key := by
  unfold ask
  cases found : memo.find? key with
  | none => simp [keys]
  | some kept =>
    have known : key ∈ memo.keys := by
      by_contra absent
      rw [(find?_eq_none_iff memo key).2 absent] at found
      cases found
    exact (or_iff_left_of_imp fun same => same ▸ known).symm

theorem Tidy.ask {memo : Memo} (tidy : memo.Tidy) : (ask key values memo).2.Tidy := by
  unfold Memo.ask
  cases found : memo.find? key with
  | some kept => exact tidy
  | none =>
    have fresh : key ∉ memo.keys := (find?_eq_none_iff memo key).1 found
    refine ⟨?_, ?_⟩
    · simp [size, tidy.counted]
    · rw [keys, List.map_append, List.nodup_append]
      refine ⟨tidy.distinct, List.pairwise_singleton _ _, fun other member last listed => ?_⟩
      obtain rfl := List.mem_singleton.1 listed
      exact fun same => fresh (same ▸ member)

theorem find?_ask_of_found {memo : Memo} {other : Key} {kept : Series Float} (found : memo.find? other = some kept) :
    (ask key values memo).2.find? other = some kept := by
  rw [find?_ask]
  split
  · rename_i same
    subst same
    simp [ask, found]
  · exact found

end Indicator.Memo

namespace Evaluation

/-- The key whose series an operand is read from, given where in its timeframe a place is. Nothing is needed of bars that
are not there. -/
def needBy (spot : Place → Option Nat) : Operand → Option Key
  | .indicator which _ name place => (spot place).map fun _ => ⟨which, name, place.timeframe⟩
  | .column .. | .constant _ => none

/-- The operands of a condition up to the first without a value. -/
def operandsReadBy (read : Operand → Option Float) (c : Condition) : List Operand :=
  c.left :: if (read c.left).isSome then [c.right] else []

/-- Whether a condition alone decides a filter: one that fails decides a conjunction, one that holds a disjunction. -/
def decidesBy (read : Operand → Option Float) (e : Expression) (c : Condition) : Bool :=
  match e.logic with
  | .all => !meetsBy read c
  | .any => meetsBy read c

/-- The conditions up to the first that decides, and that one. -/
def conditionsReadBy (read : Operand → Option Float) (e : Expression) : List Condition :=
  e.conditions.take (e.conditions.findIdx (decidesBy read e) + 1)

namespace Call

def readsBy (read : Nat → Operand → Option Float) (e : Expression) : Call → List Operand
  | .operand x _ => [x]
  | .condition c at_position => operandsReadBy (read at_position) c
  | .filter at_position => (conditionsReadBy (read at_position) e).flatMap (operandsReadBy (read at_position))
  | .explanation _ => e.operands

/-- The keys that a call asks for, in the order in which it does. -/
def needsBy (spot : Nat → Place → Option Nat) (read : Nat → Operand → Option Float) (e : Expression) (call : Call) :
    List Key :=
  (call.readsBy read e).filterMap (needBy (spot call.position))

/-- The operands that are handed in with a call, and need not be those of the filter. -/
def handed : Call → List Operand
  | .operand x _ => [x]
  | .condition c _ => c.operands
  | .filter _ | .explanation _ => []

end Call

end Evaluation

/-- The keys that a call needs by the reference. -/
def History.needs (history : History) : Expression → Evaluation.Call → List Key :=
  Evaluation.Call.needsBy (fun position place => history.spot? place position) history.value?

namespace Evaluation
namespace Frame

def needs (frame : Frame) : Expression → Call → List Key :=
  Call.needsBy (fun position place => frame.position? place position) (frame.read? frame.series)

def memoAfter (frame : Frame) (e : Expression) (calls : List Call) : Memo :=
  (calls.mapM (frame.perform e) Memo.empty).2

def ask (frame : Frame) (key : Key) : StateM Memo (Series Float) :=
  Memo.ask key fun _ => Bar.columnValues (frame.bars key.timeframe) key.column

def askAll (frame : Frame) (memo : Memo) (keys : List Key) : Memo :=
  keys.foldl (fun memo key => (frame.ask key memo).2) memo

private theorem askAll_append (frame : Frame) (memo : Memo) (keys more : List Key) :
    frame.askAll memo (keys ++ more) = frame.askAll (frame.askAll memo keys) more := List.foldl_append

private theorem mem_keys_askAll (frame : Frame) (memo : Memo) (keys : List Key) (key : Key) :
    key ∈ (frame.askAll memo keys).keys ↔ key ∈ memo.keys ∨ key ∈ keys := by
  induction keys generalizing memo with
  | nil => simp [askAll]
  | cons first rest ih =>
    refine (ih (frame.ask first memo).2).trans ?_
    rw [ask, Memo.mem_keys_ask, List.mem_cons, or_assoc]

private theorem tidy_askAll (frame : Frame) {memo : Memo} (tidy : memo.Tidy) (keys : List Key) :
    (frame.askAll memo keys).Tidy := by
  induction keys generalizing memo with
  | nil => exact tidy
  | cons first rest ih => exact ih (tidy.ask _ _)

private theorem find?_askAll_of_found (frame : Frame) {memo : Memo} {key : Key} {kept : Series Float}
    (found : memo.find? key = some kept) (keys : List Key) : (frame.askAll memo keys).find? key = some kept := by
  induction keys generalizing memo with
  | nil => exact found
  | cons first rest ih => exact ih (Memo.find?_ask_of_found _ _ found)

end Frame

/-- A computation asks for these keys, one after the other, and does nothing else to a memo that is coherent. -/
def Asks {α : Type} (frame : Frame) (run : StateM Memo α) (keys : List Key) : Prop :=
  ∀ memo, frame.shown memo = frame.series → (run memo).2 = frame.askAll memo keys

section
variable {α β : Type} {frame : Frame}

namespace Asks

theorem pure (x : α) : Asks frame (Pure.pure x) [] := fun _ _ => rfl

theorem ask (key : Key) : Asks frame (frame.ask key) [key] := fun _ _ => rfl

theorem bind {run : StateM Memo α} {x : α} {next : α → StateM Memo β} {keys more : List Key}
    (gives : Frame.Gives frame frame.series run x) (first : Asks frame run keys) (second : Asks frame (next x) more) :
    Asks frame (run >>= next) (keys ++ more) := by
  intro memo same
  obtain ⟨value, kept⟩ := gives memo same
  have continued : (run >>= next) memo = next (run memo).1 (run memo).2 := rfl
  rw [continued, value, second _ kept, first memo same, Frame.askAll_append]

theorem last {run : StateM Memo α} {x : α} {next : α → StateM Memo β} {keys : List Key}
    (gives : Frame.Gives frame frame.series run x) (first : Asks frame run keys) (silent : Asks frame (next x) []) :
    Asks frame (run >>= next) keys := by
  have asks := bind gives first silent
  rwa [List.append_nil] at asks

variable {f : α → StateM Memo β} {g : α → β} {p : α → StateM Memo Bool} {q : α → Bool} {keys : α → List Key}

theorem mapM (gives : ∀ x, Frame.Gives frame frame.series (f x) (g x)) (each : ∀ x, Asks frame (f x) (keys x))
    (xs : List α) : Asks frame (xs.mapM f) (xs.flatMap keys) := by
  induction xs with
  | nil => exact pure []
  | cons x rest ih =>
    rw [List.mapM_cons]
    exact bind (gives x) (each x) (last (.mapM rest fun y _ => gives y) ih (pure _))

theorem allM (gives : ∀ x, Frame.Gives frame frame.series (p x) (q x)) (each : ∀ x, Asks frame (p x) (keys x))
    (xs : List α) : Asks frame (xs.allM p) ((xs.take (xs.findIdx (!q ·) + 1)).flatMap keys) := by
  induction xs with
  | nil => exact pure true
  | cons x rest ih =>
    rw [List.take_succ_cons, List.flatMap_cons, List.findIdx_cons]
    refine bind (gives x) (each x) ?_
    cases q x with
    | false => exact pure false
    | true => exact ih

theorem anyM (gives : ∀ x, Frame.Gives frame frame.series (p x) (q x)) (each : ∀ x, Asks frame (p x) (keys x))
    (xs : List α) : Asks frame (xs.anyM p) ((xs.take (xs.findIdx q + 1)).flatMap keys) := by
  induction xs with
  | nil => exact pure false
  | cons x rest ih =>
    rw [List.take_succ_cons, List.flatMap_cons, List.findIdx_cons]
    refine bind (gives x) (each x) ?_
    cases q x with
    | false => exact ih
    | true => exact pure true

end Asks

private theorem asks_value? (operand : Operand) (position : Nat) :
    Asks frame (frame.value? operand position) ([operand].filterMap (needBy (frame.position? · position))) := by
  cases operand with
  | constant x => exact .pure _
  | column name place => exact .pure _
  | indicator which field name place =>
    rw [List.filterMap_cons, List.filterMap_nil]
    simp only [Frame.value?, needBy]
    cases frame.position? place position with
    | none => exact .pure none
    | some spot => exact .last (.ask _) (.ask ⟨which, name, place.timeframe⟩) (.pure _)

private theorem asks_meets (position : Nat) (c : Condition) :
    Asks frame (frame.meets position c)
      ((operandsReadBy (frame.read? frame.series position) c).filterMap (needBy (frame.position? · position))) := by
  unfold Frame.meets operandsReadBy
  rw [← List.singleton_append, List.filterMap_append]
  refine .bind (Frame.value?_gives _ _) (asks_value? _ _) ?_
  cases frame.read? frame.series position c.left with
  | none => exact .pure false
  | some left =>
    refine .last (Frame.value?_gives _ _) (asks_value? _ _) ?_
    cases frame.read? frame.series position c.right with
    | none => exact .pure false
    | some right => exact .pure _

private theorem asks_matched (e : Expression) (position : Nat) :
    Asks frame (frame.matched e position) (frame.needs e (.filter position)) := by
  unfold Frame.needs Call.needsBy Call.readsBy
  rw [List.filterMap_flatMap]
  unfold Frame.matched conditionsReadBy decidesBy
  cases e.logic with
  | all => exact .allM (Frame.meets_gives position) (asks_meets position) _
  | any => exact .anyM (Frame.meets_gives position) (asks_meets position) _

private theorem asks_explain (e : Expression) (position : Nat) :
    Asks frame (frame.explain e position) (e.operands.filterMap (needBy (frame.position? · position))) := by
  rw [Expression.operands, List.filterMap_flatMap]
  refine .last (.mapM _ fun c _ => Frame.outcome_gives position c)
    (.mapM (Frame.outcome_gives position) (fun c => ?_) _) (.pure _)
  rw [Condition.operands, ← List.singleton_append, List.filterMap_append]
  exact .bind (Frame.value?_gives _ _) (asks_value? _ _) (.last (Frame.value?_gives _ _) (asks_value? _ _) (.pure _))

private theorem asks_perform (e : Expression) (call : Call) :
    Asks frame (frame.perform e call) (frame.needs e call) := by
  cases call with
  | operand x position => exact .last (Frame.value?_gives _ _) (asks_value? x position) (.pure _)
  | condition c position => exact .last (Frame.meets_gives position c) (asks_meets position c) (.pure _)
  | filter position => exact .last (Frame.matched_gives e position) (asks_matched e position) (.pure _)
  | explanation position => exact .last (Frame.explain_gives e position) (asks_explain e position) (.pure _)

namespace Frame

/-- Whatever calls are made, the memo holds what they need and nothing else. -/
theorem memoAfter_eq (frame : Frame) (e : Expression) (calls : List Call) :
    frame.memoAfter e calls = frame.askAll .empty (calls.flatMap (frame.needs e)) :=
  Asks.mapM (fun call => perform_gives call) (asks_perform e) calls .empty frame.shown_empty

private theorem memoAfter_append (frame : Frame) (e : Expression) (calls further : List Call) :
    frame.memoAfter e (calls ++ further) = frame.askAll (frame.memoAfter e calls) (further.flatMap (frame.needs e)) := by
  rw [memoAfter_eq, memoAfter_eq, List.flatMap_append, askAll_append]

end Frame

private theorem pairwise_eraseDups {γ : Type} [BEq γ] [LawfulBEq γ] (xs : List γ) :
    xs.eraseDups.Pairwise fun a b => xs.idxOf a < xs.idxOf b := by
  induction xs using List.reverseRecOn with
  | nil => exact .nil
  | append_singleton xs x ih =>
    -- A further element is used for the first time behind all others, if at all.
    have early {a : γ} (member : a ∈ xs.eraseDups) : (xs ++ [x]).idxOf a = xs.idxOf a :=
      List.idxOf_append_of_mem (List.mem_eraseDups.1 member)
    have others : xs.eraseDups.Pairwise fun a b => (xs ++ [x]).idxOf a < (xs ++ [x]).idxOf b :=
      ih.imp_of_mem fun a_in b_in less => by rwa [early a_in, early b_in]
    rw [List.eraseDups_append]
    by_cases known : x ∈ xs
    · have nothing : [x].removeAll xs = [] := by simp [List.removeAll, known]
      rwa [nothing, List.eraseDups_nil, List.append_nil]
    · have alone : ([x].removeAll xs).eraseDups = [x] := by simp [List.removeAll, known, List.eraseDups_cons]
      rw [alone]
      refine List.pairwise_append.2 ⟨others, List.pairwise_singleton _ x, fun a a_in b b_in => ?_⟩
      rw [List.mem_singleton.1 b_in, early a_in, List.idxOf_append_of_notMem known, List.idxOf_cons_self]
      exact List.idxOf_lt_length_of_mem (List.mem_eraseDups.1 a_in)

theorem mem_keys_iff {e : Expression} {key : Key} :
    key ∈ e.keys ↔ ∃ operand ∈ e.operands, operand.key? = some key := by
  rw [Expression.keys, List.mem_eraseDups, List.mem_filterMap]

private theorem key?_of_needBy {spot : Place → Option Nat} {operand : Operand} {key : Key}
    (needed : needBy spot operand = some key) : operand.key? = some key := by
  cases operand with
  | constant x => cases needed
  | column name place => cases needed
  | indicator which field name place =>
    obtain ⟨_, -, same⟩ := Option.map_eq_some_iff.1 needed
    exact congrArg some same

private theorem mem_operandsReadBy {read : Operand → Option Float} {c : Condition} {operand : Operand}
    (reads : operand ∈ operandsReadBy read c) : operand ∈ c.operands := by
  rcases List.mem_cons.1 reads with rfl | right
  · exact List.mem_cons_self
  · split at right
    · exact List.mem_cons_of_mem _ right
    · cases right

private theorem mem_readsBy {read : Nat → Operand → Option Float} {e : Expression} {call : Call} {operand : Operand}
    (reads : operand ∈ call.readsBy read e) : operand ∈ call.handed ∨ operand ∈ e.operands := by
  cases call with
  | operand x position => exact .inl reads
  | condition c position => exact .inl (mem_operandsReadBy reads)
  | filter position =>
    obtain ⟨c, early, reads⟩ := List.mem_flatMap.1 reads
    exact .inr (List.mem_flatMap.2 ⟨c, List.mem_of_mem_take early, mem_operandsReadBy reads⟩)
  | explanation position => exact .inr reads

private theorem mem_keys_of_needs {e : Expression} {call : Call} {key : Key} (needed : key ∈ frame.needs e call) :
    key ∈ e.keys ∨ ∃ operand ∈ call.handed, operand ∉ e.operands ∧ operand.key? = some key := by
  obtain ⟨operand, reads, needed⟩ := List.mem_filterMap.1 needed
  have its_key := key?_of_needBy needed
  by_cases own : operand ∈ e.operands
  · exact .inl (mem_keys_iff.2 ⟨operand, own, its_key⟩)
  · exact .inr ⟨operand, (mem_readsBy reads).resolve_right own, own, its_key⟩

section Reference
variable {e : Expression} {call : Call} {read other : Nat → Operand → Option Float}

private theorem mem_operands_of_within (within : call.Within e) {operand : Operand}
    (reads : operand ∈ call.readsBy read e) : operand ∈ e.operands := by
  refine (mem_readsBy reads).elim (fun handed => ?_) id
  cases call with
  | operand x position =>
    obtain rfl := List.mem_singleton.1 handed
    exact within
  | condition c position => exact List.mem_flatMap.2 ⟨c, within, handed⟩
  | filter position => cases handed
  | explanation position => cases handed

private theorem operandsReadBy_congr {read other : Operand → Option Float}
    (same : ∀ operand ∈ e.operands, read operand = other operand) {c : Condition} (member : c ∈ e.conditions) :
    operandsReadBy read c = operandsReadBy other c := by
  rw [operandsReadBy, operandsReadBy, same _ (operands_mem member).1]

private theorem conditionsReadBy_congr {read other : Operand → Option Float}
    (same : ∀ operand ∈ e.operands, read operand = other operand) :
    conditionsReadBy read e = conditionsReadBy other e := by
  have decisions : e.conditions.map (decidesBy read e) = e.conditions.map (decidesBy other e) := by
    refine List.map_congr_left fun c member => ?_
    unfold decidesBy
    rw [meetsBy_congr same member]
  have first := congrArg (List.findIdx id) decisions
  rw [List.findIdx_map, List.findIdx_map, Function.id_comp, Function.id_comp] at first
  rw [conditionsReadBy, conditionsReadBy, first]

private theorem readsBy_congr (within : call.Within e)
    (same : ∀ operand ∈ e.operands, read call.position operand = other call.position operand) :
    call.readsBy read e = call.readsBy other e := by
  cases call with
  | operand x position => rfl
  | condition c position => exact operandsReadBy_congr same within
  | filter position =>
    have conditions : conditionsReadBy (read position) e = conditionsReadBy (other position) e :=
      conditionsReadBy_congr same
    simp only [Call.readsBy, conditions]
    exact List.flatMap_congr fun c early => operandsReadBy_congr same (List.mem_of_mem_take early)
  | explanation position => rfl

end Reference

private theorem needBy_eq {history : History} {e : Expression} (ordered : history.Ordered) {operand : Operand}
    (member : operand ∈ e.operands) (position : Nat) :
    needBy ((Frame.gather history e).position? · position) operand = needBy (history.spot? · position) operand := by
  cases operand with
  | constant x => rfl
  | column name place => rfl
  | indicator which field name place =>
    have read : place.timeframe ∈ e.timeframes := mem_timeframes_of_source member rfl
    rw [needBy, needBy, position?_eq_spot? ordered read]

/-- A call of the filter on a prepared frame needs what it needs by the reference. -/
theorem needs_eq_reference {history : History} {e : Expression} (prepared : Frame.prepare history e = .ok frame)
    (ordered : history.Ordered) {call : Call} (within : call.Within e) : frame.needs e call = history.needs e call := by
  obtain ⟨rfl, -, -⟩ := Frame.prepare_eq_ok_iff.1 prepared
  unfold Frame.needs History.needs Call.needsBy
  rw [readsBy_congr within fun operand member => read?_eq_value? ordered member call.position]
  exact List.filterMap_congr fun operand reads => needBy_eq ordered (mem_operands_of_within within reads) call.position

/-- After any calls on a context, every series was computed once and none is changed or given up by further calls. A
series belongs to the filter, unless an operand from elsewhere was handed in that has it. A call adds the series that
the operands need which it has to read, so far as they are not there; on bars that ascend these are told by the reference.
The keys of the filter are those of its operands, in the order of their first use. -/
theorem computed_once_when_needed (frame : Frame) (e : Expression) (calls : List Call) :
    let memo := frame.memoAfter e calls
    memo.computations = memo.size ∧ memo.keys.Nodup ∧
    (∀ further key kept, memo.find? key = some kept → (frame.memoAfter e (calls ++ further)).find? key = some kept) ∧
    (∀ key ∈ memo.keys, key ∈ e.keys ∨
      ∃ call ∈ calls, ∃ operand ∈ call.handed, operand ∉ e.operands ∧ operand.key? = some key) ∧
    (∀ call key, key ∈ (frame.memoAfter e (calls ++ [call])).keys ↔ key ∈ memo.keys ∨ key ∈ frame.needs e call) ∧
    (∀ history, Frame.prepare history e = .ok frame → history.Ordered → ∀ call, call.Within e →
      frame.needs e call = history.needs e call) ∧
    (∀ key, key ∈ e.keys ↔ ∃ operand ∈ e.operands, operand.key? = some key) ∧
    e.keys.Pairwise fun a b =>
      (e.operands.filterMap Operand.key?).idxOf a < (e.operands.filterMap Operand.key?).idxOf b := by
  intro memo
  have asked : memo = frame.askAll .empty (calls.flatMap (frame.needs e)) := frame.memoAfter_eq e calls
  have tidy : memo.Tidy := asked ▸ frame.tidy_askAll Memo.tidy_empty _
  refine ⟨tidy.counted, tidy.distinct, fun further key kept found => ?_, fun key known => ?_, fun call key => ?_,
    fun history prepared ordered call within => needs_eq_reference prepared ordered within, fun key => mem_keys_iff,
    pairwise_eraseDups _⟩
  · rw [Frame.memoAfter_append]
    exact frame.find?_askAll_of_found found _
  · rw [asked, Frame.mem_keys_askAll, List.mem_flatMap] at known
    obtain ⟨call, made, needed⟩ := known.resolve_left List.not_mem_nil
    exact (mem_keys_of_needs needed).imp_right fun foreign => ⟨call, made, foreign⟩
  · rw [Frame.memoAfter_append, Frame.mem_keys_askAll, List.flatMap_singleton]

end

example : Sample.history.needs Sample.filter (.filter 3) = [⟨.sma 2, "close", .daily⟩] ∧
    Sample.history.needs Sample.filter (.filter 0) = [] := by decide

end Evaluation
end Screener
