import Screener.Evaluation.Verdict

/-! Evaluation without its memo. A memo only ever holds what would be computed anyway, so an operand, a
condition and a whole filter have a value that no earlier evaluation can change. -/
namespace Screener.Evaluation
open Screener.Filter (Operand Condition Expression)
open Indicator (Memo Key Series)
variable {α β : Type}

def meetsBy (read : Operand → Option Float) (condition : Condition) : Bool :=
  match read condition.left, read condition.right with
  | some left, some right => holds condition.comparison left right
  | _, _ => false

def matchedBy (read : Operand → Option Float) (e : Expression) : Bool :=
  match e.logic with
  | .all => e.conditions.all (meetsBy read)
  | .any => e.conditions.any (meetsBy read)

def outcomeBy (read : Operand → Option Float) (condition : Condition) : Outcome where
  condition := condition.wording
  left := read condition.left
  right := read condition.right
  result := meetsBy read condition

def explainBy (read : Operand → Option Float) (e : Expression) : Verdict where
  matched := matchedBy read e
  outcomes := e.conditions.map (outcomeBy read)

namespace Frame

def series (frame : Frame) (key : Key) : Series Float :=
  key.indicator.series (Bar.columnValues (frame.bars key.timeframe) key.column)

def shown (frame : Frame) (memo : Memo) (key : Key) : Series Float :=
  (memo.find? key).getD (frame.series key)

/-- Every series that is kept is the one that would be computed. -/
def Coherent (frame : Frame) (memo : Memo) : Prop :=
  ∀ key kept, memo.find? key = some kept → kept = frame.series key

/-- The value of an operand at a base position, where `look` has the series. -/
def read? (frame : Frame) (look : Key → Series Float) (position : Nat) : Operand → Option Float
  | .constant x => some x
  | .column name place =>
    (frame.position? place position).bind fun spot =>
      (frame.bars place.timeframe)[spot]?.bind fun bar => (bar.column? name).filter Float.isFinite
  | .indicator which field name place =>
    (frame.position? place position).bind fun spot => (look ⟨which, name, place.timeframe⟩).reading? spot field

theorem coherent_iff (frame : Frame) (memo : Memo) : frame.Coherent memo ↔ frame.shown memo = frame.series := by
  constructor
  · intro coherent
    funext key
    unfold shown
    cases kept : memo.find? key with
    | none => rfl
    | some found => exact coherent key found kept
  · intro same key found kept
    have at_key := congrFun same key
    simpa only [shown, kept, Option.getD_some] using at_key

theorem coherent_empty (frame : Frame) : frame.Coherent .empty := by
  intro key kept found
  simp [Memo.find?, Memo.empty] at found

/-- A computation comes to `x` with every memo that answers as `look` does, and leaves a memo that answers
so as well. -/
def Gives (frame : Frame) (look : Key → Series Float) (run : StateM Memo α) (x : α) : Prop :=
  ∀ memo, frame.shown memo = look → (run memo).1 = x ∧ frame.shown (run memo).2 = look

variable {frame : Frame} {look : Key → Series Float}

namespace Gives

theorem pure (x : α) : Gives frame look (Pure.pure x) x := fun _ same => ⟨rfl, same⟩

theorem bind {run : StateM Memo α} {x : α} {next : α → StateM Memo β} {y : β}
    (first : Gives frame look run x) (second : Gives frame look (next x) y) : Gives frame look (run >>= next) y := by
  intro memo same
  obtain ⟨value, kept⟩ := first memo same
  have continued : (run >>= next) memo = next (run memo).1 (run memo).2 := rfl
  rw [continued, value]
  exact second _ kept

theorem ask (key : Key) :
    Gives frame look (Memo.ask key fun _ => Bar.columnValues (frame.bars key.timeframe) key.column)
      (look key) := by
  intro memo same
  have answered : (Memo.ask key (fun _ => Bar.columnValues (frame.bars key.timeframe) key.column) memo).1 =
      frame.shown memo key := by
    unfold Memo.ask shown
    cases memo.find? key <;> rfl
  refine ⟨by rw [answered, same], ?_⟩
  rw [← same]
  funext other
  unfold shown
  rw [Memo.find?_ask]
  by_cases asked : other = key
  · subst other
    simp only [if_true, Option.getD_some, answered, shown]
  · simp only [asked, if_false]

theorem mapM {f : α → StateM Memo β} {g : α → β} (xs : List α) (each : ∀ x ∈ xs, Gives frame look (f x) (g x)) :
    Gives frame look (xs.mapM f) (xs.map g) := by
  induction xs with
  | nil => exact pure []
  | cons x rest ih =>
    rw [List.mapM_cons]
    have others := ih fun y member => each y (List.mem_cons_of_mem x member)
    exact (each x List.mem_cons_self).bind (others.bind (pure _))

theorem allM {f : α → StateM Memo Bool} {g : α → Bool} (each : ∀ x, Gives frame look (f x) (g x))
    (xs : List α) : Gives frame look (xs.allM f) (xs.all g) := by
  induction xs with
  | nil => exact pure true
  | cons x rest ih =>
    refine (each x).bind ?_
    rw [List.all_cons]
    cases g x with
    | false => exact pure false
    | true => exact ih

theorem anyM {f : α → StateM Memo Bool} {g : α → Bool} (each : ∀ x, Gives frame look (f x) (g x))
    (xs : List α) : Gives frame look (xs.anyM f) (xs.any g) := by
  induction xs with
  | nil => exact pure false
  | cons x rest ih =>
    refine (each x).bind ?_
    rw [List.any_cons]
    cases g x with
    | false => exact ih
    | true => exact pure true

end Gives

theorem value?_gives (operand : Operand) (position : Nat) :
    Gives frame look (frame.value? operand position) (frame.read? look position operand) := by
  cases operand with
  | constant x => exact .pure _
  | column name place =>
    have same : frame.value? (.column name place) position =
        Pure.pure (frame.read? look position (.column name place)) := by
      simp only [value?, read?]
      congr 1
      cases frame.position? place position with
      | none => rfl
      | some spot => cases found : (frame.bars place.timeframe)[spot]? <;> simp [found]
    rw [same]
    exact .pure _
  | indicator which field name place =>
    simp only [value?, read?]
    cases frame.position? place position with
    | none => exact .pure none
    | some spot => exact (Gives.ask ⟨which, name, place.timeframe⟩).bind (.pure _)

theorem meets_gives (position : Nat) (condition : Condition) :
    Gives frame look (frame.meets position condition) (meetsBy (frame.read? look position) condition) := by
  unfold meets meetsBy
  refine (value?_gives _ _).bind ?_
  cases frame.read? look position condition.left with
  | none => exact .pure false
  | some left =>
    refine (value?_gives _ _).bind ?_
    cases frame.read? look position condition.right with
    | none => exact .pure false
    | some right => exact .pure _

theorem matched_gives (e : Expression) (position : Nat) :
    Gives frame look (frame.matched e position) (matchedBy (frame.read? look position) e) := by
  unfold matched matchedBy
  cases e.logic with
  | all => exact .allM (meets_gives position) _
  | any => exact .anyM (meets_gives position) _

theorem outcome_gives (position : Nat) (condition : Condition) :
    Gives frame look (frame.outcome position condition) (outcomeBy (frame.read? look position) condition) :=
  (value?_gives _ _).bind ((value?_gives _ _).bind (.pure _))

theorem explain_gives (e : Expression) (position : Nat) :
    Gives frame look (frame.explain e position) (explainBy (frame.read? look position) e) := by
  refine (Gives.mapM e.conditions fun c _ => outcome_gives position c).bind ?_
  unfold explainBy matchedBy
  cases e.logic <;> simp only [List.all_map, List.any_map] <;> exact .pure _

end Frame
end Screener.Evaluation
