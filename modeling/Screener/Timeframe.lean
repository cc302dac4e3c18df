import Screener.Text.Word
import Screener.Calendar.Timestamp

/-! The lengths of time that a price bar may cover, from the finest to the coarsest. -/
namespace Screener

inductive Timeframe where
  | intraday
  | daily
  | weekly
  deriving Repr, DecidableEq

namespace Timeframe

def all : List Timeframe := [.intraday, .daily, .weekly]

def standard : Timeframe := .daily

def name : Timeframe → String
  | .intraday => "intraday"
  | .daily => "daily"
  | .weekly => "weekly"

def rank : Timeframe → Nat
  | .intraday => 0
  | .daily => 1
  | .weekly => 2

def derivableFrom (target base : Timeframe) : Bool := base.rank ≤ target.rank

def ofName? (name : String) : Option Timeframe := all.find? (·.name == name)

theorem ofName?_name (timeframe : Timeframe) : ofName? timeframe.name = some timeframe := by
  cases timeframe <;> decide

def ofSetting : String → Except Text.UnknownWord Timeframe :=
  Text.choose "timeframe" "daily, weekly or intraday" ofName?

/-- Whether two bars next to each other fall into one bar of the timeframe. -/
def joins (target : Timeframe) (a b : Calendar.Timestamp) : Bool :=
  match target with
  | .intraday => false
  | .daily => a.date == b.date
  | .weekly => a.date.week == b.date.week

structure Each (α : Type) where
  intraday : α
  daily : α
  weekly : α

namespace Each
variable {α : Type}

def get (each : Each α) : Timeframe → α
  | .intraday => each.intraday
  | .daily => each.daily
  | .weekly => each.weekly

def ofFunction (f : Timeframe → α) : Each α := ⟨f .intraday, f .daily, f .weekly⟩

def set (each : Each α) (timeframe : Timeframe) (x : α) : Each α :=
  ofFunction fun other => if other = timeframe then x else each.get other

@[simp] theorem get_ofFunction (f : Timeframe → α) (timeframe : Timeframe) :
    (ofFunction f).get timeframe = f timeframe := by cases timeframe <;> rfl

@[simp] theorem get_set (each : Each α) (timeframe other : Timeframe) (x : α) :
    (each.set timeframe x).get other = if other = timeframe then x else each.get other := by
  rw [set, get_ofFunction]

end Each
end Timeframe
end Screener
