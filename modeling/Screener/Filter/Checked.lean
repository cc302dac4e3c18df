import Screener.Filter.Violation

/-! Checks that go on after a fault. A check gives its value, if it has one, and everything it found
wrong; checks side by side add up what they found. -/
namespace Screener.Filter

structure Checked (α : Type) where
  value : Option α
  found : List Violation

namespace Checked
variable {α β γ : Type}

def ok (x : α) : Checked α := ⟨some x, []⟩

def fail (reason : Reason) : Checked α := ⟨none, [⟨[], reason⟩]⟩

def failAt (step : String) (reason : Reason) : Checked α := ⟨none, [⟨[step], reason⟩]⟩

def map (f : α → β) (c : Checked α) : Checked β := ⟨c.value.map f, c.found⟩

def andThen (c : Checked α) (next : α → Checked β) : Checked β :=
  match c.value with
  | some x => ⟨(next x).value, c.found ++ (next x).found⟩
  | none => ⟨none, c.found⟩

def both (f : α → β → γ) (a : Checked α) (b : Checked β) : Checked γ :=
  ⟨match a.value, b.value with
    | some x, some y => some (f x y)
    | _, _ => none, a.found ++ b.found⟩

/-- Faults found on the way that do not keep a value from being made. -/
def noting (found : List Violation) (c : Checked α) : Checked α := ⟨c.value, found ++ c.found⟩

/-- The check of a part, as seen from the whole. -/
def under (step : String) (c : Checked α) : Checked α := ⟨c.value, c.found.map (·.under step)⟩

def ofOption (reason : Reason) : Option α → Checked α
  | some x => ok x
  | none => fail reason

def items (check : α → Checked β) : Nat → List α → Checked (List β)
  | _, [] => ok []
  | i, x :: rest => both List.cons ((check x).under i.repr) (items check (i + 1) rest)

/-- The value, if nothing at all was found wrong. A check without a value or a fault counts as faulty. -/
def toExcept (c : Checked α) : Except (List Violation) α :=
  match c.value, c.found with
  | some x, [] => .ok x
  | none, [] => .error [⟨[], .unspecified⟩]
  | _, found => .error found

theorem toExcept_eq_ok_iff {c : Checked α} {x : α} :
    c.toExcept = .ok x ↔ c.value = some x ∧ c.found = [] := by
  obtain ⟨value, found⟩ := c
  cases value <;> cases found <;> simp [toExcept]

end Checked
end Screener.Filter
