import Screener.Proofs.Evaluation.Seen

/-! Evaluating on one context again and again. The reference below has no memo and finds the current bar by
going through all bars; every call on a context gives what the reference gives, whatever was called before. -/
namespace Screener
open Screener.Filter (Operand Place Condition Expression)
open Calendar (Timestamp)

/-- The position of the last bar dated at or before a time. -/
def lastDated? (bars : List Bar) (time : Timestamp) : Option Nat :=
  ((List.range bars.length).filter fun i => bars[i]?.any (·.date.notAfter time)).getLast?

namespace History

/-- In every timeframe that the history gives bars of, they ascend. -/
def Ordered (history : History) : Prop := ∀ timeframe, ∀ bars ∈ history.bars? timeframe, Ascending bars

instance (history : History) : Decidable history.Ordered :=
  decidable_of_iff (∀ timeframe ∈ Timeframe.all, ∀ bars ∈ history.bars? timeframe, Ascending bars)
    ⟨fun listed timeframe => listed timeframe (by cases timeframe <;> decide),
      fun every timeframe _ => every timeframe⟩

/-- The position of the bar of a timeframe that is current at a base position. -/
def current? (history : History) (timeframe : Timeframe) (position : Nat) : Option Nat :=
  if timeframe = history.base then
    if position < history.bars.length then some position else none
  else history.bars[position]?.bind fun row => lastDated? (history.barsFor timeframe) row.date

def spot? (history : History) (place : Place) (position : Nat) : Option Nat :=
  (history.current? place.timeframe position).bind fun current =>
    if current < place.offset then none else some (current - place.offset)

def value? (history : History) (position : Nat) : Operand → Option Float
  | .constant x => some x
  | .column name place =>
    (history.spot? place position).bind fun spot =>
      (history.barsFor place.timeframe)[spot]?.bind fun bar => (bar.column? name).filter Float.isFinite
  | .indicator which field name place =>
    (history.spot? place position).bind fun spot =>
      (which.series (Bar.columnValues (history.barsFor place.timeframe) name)).reading? spot field

end History

namespace Evaluation
open Indicator (Memo)

/-- What a context can be asked about a base position, be it in range or not. -/
inductive Call where
  | operand (operand : Operand) (position : Nat)
  | condition (condition : Condition) (position : Nat)
  | filter (position : Nat)
  | explanation (position : Nat)

inductive Answer where
  | value (x : Option Float)
  | decision (holds : Bool)
  | verdict (verdict : Verdict)

namespace Call

def position : Call → Nat
  | .operand _ position | .condition _ position | .filter position | .explanation position => position

/-- The operand or the condition asked about is one of the filter. -/
def Within (e : Expression) : Call → Prop
  | .operand x _ => x ∈ e.operands
  | .condition c _ => c ∈ e.conditions
  | .filter _ | .explanation _ => True

def answerBy (read : Nat → Operand → Option Float) (e : Expression) : Call → Answer
  | .operand x at_position => .value (read at_position x)
  | .condition c at_position => .decision (meetsBy (read at_position) c)
  | .filter at_position => .decision (matchedBy (read at_position) e)
  | .explanation at_position => .verdict (explainBy (read at_position) e)

end Call

namespace Frame

def perform (frame : Frame) (e : Expression) : Call → StateM Memo Answer
  | .operand operand position => return .value (← frame.value? operand position)
  | .condition condition position => return .decision (← frame.meets position condition)
  | .filter position => return .decision (← frame.matched e position)
  | .explanation position => return .verdict (← frame.explain e position)

def answers (frame : Frame) (e : Expression) (calls : List Call) : List Answer :=
  (calls.mapM (frame.perform e) Memo.empty).1

/-- The answer to a call on a context on which others were made before. -/
def answer (frame : Frame) (e : Expression) (before : List Call) (call : Call) : Answer :=
  (frame.perform e call (before.mapM (frame.perform e) Memo.empty).2).1

variable {frame : Frame} {e : Expression}

theorem perform_gives {look : Indicator.Key → Indicator.Series Float} (call : Call) :
    Gives frame look (frame.perform e call) (call.answerBy (frame.read? look) e) := by
  unfold perform Call.answerBy
  cases call with
  | operand operand position => exact (value?_gives operand position).bind (.pure _)
  | condition condition position => exact (meets_gives position condition).bind (.pure _)
  | filter position => exact (matched_gives e position).bind (.pure _)
  | explanation position => exact (explain_gives e position).bind (.pure _)

theorem shown_empty (frame : Frame) : frame.shown .empty = frame.series :=
  (frame.coherent_iff .empty).1 frame.coherent_empty

private theorem coherent_mapM_perform (calls : List Call) :
    frame.Coherent (calls.mapM (frame.perform e) Memo.empty).2 :=
  (frame.coherent_iff _).2 (Gives.mapM calls (fun call _ => perform_gives call) .empty frame.shown_empty).2

private theorem answers_eq (calls : List Call) :
    frame.answers e calls = calls.map (Call.answerBy (frame.read? frame.series) e) :=
  (Gives.mapM calls (fun call _ => perform_gives call) .empty frame.shown_empty).1

theorem answer_eq (before : List Call) (call : Call) :
    frame.answer e before call = call.answerBy (frame.read? frame.series) e :=
  (perform_gives call _ ((frame.coherent_iff _).1 (coherent_mapM_perform before))).1

end Frame

private theorem lastDated?_eq {bars : List Bar} (ascending : Ascending bars) (time : Timestamp) :
    lastDated? bars time = lastDatedBy? bars time := by
  have reach : (visible time bars).length ≤ bars.length := (visible_initial time bars).length_le
  have dated (i : Nat) : bars[i]?.any (·.date.notAfter time) = decide (i < (visible time bars).length) := by
    rw [← datedBy_eq ascending i, datedBy]
    cases bars[i]? <;> rfl
  unfold lastDated? lastDatedBy?
  simp only [dated, countBefore_datedBy ascending]
  generalize (visible time bars).length = n at *
  obtain ⟨later, length⟩ := Nat.exists_eq_add_of_le reach
  have early : (List.range n).filter (fun i => decide (i < n)) = List.range n :=
    List.filter_eq_self.2 fun i member => by simpa using member
  have late : ((List.range later).map (n + ·)).filter (fun i => decide (i < n)) = [] :=
    List.filter_eq_nil_iff.2 fun i member => by
      obtain ⟨j, _, rfl⟩ := List.mem_map.1 member
      simp
  rw [length, List.range_add, List.filter_append, early, late, List.append_nil, List.getLast?_range]
  cases n <;> rfl

section
variable {history : History} {e : Expression}

theorem ascending_barsFor (ordered : history.Ordered) (timeframe : Timeframe) :
    Ascending (history.barsFor timeframe) := by
  unfold History.barsFor
  cases given : history.bars? timeframe with
  | none => exact ascending_resample (ordered _ _ history.bars?_base)
  | some bars => exact ordered timeframe bars given

private theorem aligned?_eq_current? (ordered : history.Ordered) {timeframe : Timeframe}
    (read : timeframe ∈ e.timeframes) (position : Nat) :
    (Frame.gather history e).aligned? timeframe position = history.current? timeframe position := by
  unfold Frame.aligned? History.current?
  simp only [Frame.history_gather, Frame.bars_gather read, lastDated?_eq (ascending_barsFor ordered timeframe)]
  split
  · rfl
  · cases history.bars[position]? <;> rfl

theorem position?_eq_spot? (ordered : history.Ordered) {place : Place} (read : place.timeframe ∈ e.timeframes)
    (position : Nat) : (Frame.gather history e).position? place position = history.spot? place position := by
  unfold Frame.position? History.spot?
  rw [aligned?_eq_current? ordered read]
  congr 1
  funext current
  unfold back?
  split <;> split <;> first | rfl | omega

theorem read?_eq_value? (ordered : history.Ordered) {operand : Operand} (member : operand ∈ e.operands)
    (position : Nat) :
    (Frame.gather history e).read? (Frame.gather history e).series position operand =
      history.value? position operand := by
  cases operand with
  | constant x => rfl
  | column name place =>
    have read : place.timeframe ∈ e.timeframes := mem_timeframes_of_source member rfl
    simp only [Frame.read?, History.value?, position?_eq_spot? ordered read, Frame.bars_gather read]
  | indicator which field name place =>
    have read : place.timeframe ∈ e.timeframes := mem_timeframes_of_source member rfl
    simp only [Frame.read?, Frame.series, History.value?, position?_eq_spot? ordered read, Frame.bars_gather read]

variable {read other : Operand → Option Float}

theorem operands_mem {c : Condition} (member : c ∈ e.conditions) : c.left ∈ e.operands ∧ c.right ∈ e.operands := by
  constructor <;> exact List.mem_flatMap.2 ⟨c, member, by simp [Condition.operands]⟩

theorem meetsBy_congr (same : ∀ operand ∈ e.operands, read operand = other operand) {c : Condition}
    (member : c ∈ e.conditions) : meetsBy read c = meetsBy other c := by
  obtain ⟨left, right⟩ := operands_mem member
  rw [meetsBy, meetsBy, same _ left, same _ right]

private theorem matchedBy_congr (same : ∀ operand ∈ e.operands, read operand = other operand) :
    matchedBy read e = matchedBy other e := by
  have results : e.conditions.map (meetsBy read) = e.conditions.map (meetsBy other) :=
    List.map_congr_left fun c member => meetsBy_congr same member
  have every := congrArg (List.all · id) results
  have some_one := congrArg (List.any · id) results
  simp only [List.all_map, List.any_map, Function.id_comp] at every some_one
  unfold matchedBy
  cases e.logic with
  | all => exact every
  | any => exact some_one

private theorem explainBy_congr (same : ∀ operand ∈ e.operands, read operand = other operand) :
    explainBy read e = explainBy other e := by
  have outcomes : e.conditions.map (outcomeBy read) = e.conditions.map (outcomeBy other) := by
    refine List.map_congr_left fun c member => ?_
    obtain ⟨left, right⟩ := operands_mem member
    rw [outcomeBy, outcomeBy, meetsBy_congr same member, same _ left, same _ right]
  rw [explainBy, explainBy, outcomes, matchedBy_congr same]

theorem answerBy_congr {read other : Nat → Operand → Option Float} {call : Call} (within : call.Within e)
    (same : ∀ operand ∈ e.operands, read call.position operand = other call.position operand) :
    call.answerBy read e = call.answerBy other e := by
  cases call with
  | operand operand position => exact congrArg Answer.value (same operand within)
  | condition c position => exact congrArg Answer.decision (meetsBy_congr same within)
  | filter position => exact congrArg Answer.decision (matchedBy_congr same)
  | explanation position => exact congrArg Answer.verdict (explainBy_congr same)

/-- Whatever calls are made on a prepared context, in whatever order, each gives what the reference gives; and
in every state of the memo an explanation decides as the filter does. -/
theorem answers_eq_reference {frame : Frame} (prepared : Frame.prepare history e = .ok frame)
    (ordered : history.Ordered) (calls : List Call) (within : ∀ call ∈ calls, call.Within e) :
    frame.answers e calls = calls.map (Call.answerBy history.value? e) ∧
      ∀ position memo, (frame.explain e position memo).1.matched = (frame.matched e position memo).1 := by
  obtain ⟨rfl, -, -⟩ := Frame.prepare_eq_ok_iff.1 prepared
  constructor
  · rw [Frame.answers_eq]
    refine List.map_congr_left fun call member => answerBy_congr (within call member) fun operand inside => ?_
    exact read?_eq_value? ordered inside call.position
  · intro position memo
    rw [(Frame.explain_gives e position memo rfl).1, (Frame.matched_gives e position memo rfl).1]
    rfl

end

namespace Sample

def bar (day : Nat) (in_month : 1 ≤ day ∧ day ≤ Calendar.daysIn 2024 1) (price : Float) : Bar :=
  ⟨"A", ⟨⟨2024, 1, day, by decide, by decide, in_month⟩, .midnight⟩, price, price, price, price, 1, .empty⟩

def thursday : Bar := bar 4 (by decide) 1
def friday : Bar := bar 5 (by decide) 2
def monday : Bar := bar 8 (by decide) 3
def tuesday : Bar := bar 9 (by decide) 4

def history : History := .ofBars "A" .daily [thursday, friday, monday, tuesday]

def rising : Condition :=
  ⟨.column "close" ⟨.weekly, 0⟩, .greater, .indicator (.sma 2) .value "close" ⟨.daily, 1⟩⟩

def filter : Expression := ⟨.any, [rising], by decide⟩

def frame : Frame := .gather history filter

theorem prepare_history : Frame.prepare history filter = .ok frame := rfl

theorem ordered_history : history.Ordered := by decide

def calls : List Call := [.explanation 3, .filter 9, .condition rising 3, .operand (.column "close" ⟨.weekly, 0⟩) 0]

private theorem within_calls : ∀ call ∈ calls, call.Within filter := by
  simp [calls, Call.Within, filter, Expression.operands, Condition.operands, rising]

end Sample

theorem answers_eq_reference_sample :
    Frame.prepare Sample.history Sample.filter = .ok Sample.frame ∧ Sample.history.Ordered ∧
      (∀ call ∈ Sample.calls, call.Within Sample.filter) ∧
      Sample.frame.answers Sample.filter Sample.calls =
        Sample.calls.map (Call.answerBy Sample.history.value? Sample.filter) ∧
      ∀ position memo, (Sample.frame.explain Sample.filter position memo).1.matched =
        (Sample.frame.matched Sample.filter position memo).1 :=
  ⟨Sample.prepare_history, Sample.ordered_history, Sample.within_calls,
    answers_eq_reference Sample.prepare_history Sample.ordered_history Sample.calls Sample.within_calls⟩

end Evaluation
end Screener
