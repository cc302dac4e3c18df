import Mathlib.Data.List.Forall2
import Screener.Filter.Checked

/-! When a check passes. A check made of others passes if they do, so what a document must be like for its check to
pass can be read off piece by piece. -/
namespace Screener.Filter.Checked
variable {α β γ : Type}

/-- The check gives the value and finds nothing wrong. -/
def Passes (c : Checked α) (x : α) : Prop := c.value = some x ∧ c.found = []

@[simp] theorem passes_ok {x y : α} : (ok x).Passes y ↔ x = y := by simp [Passes, ok]

@[simp] theorem not_passes_fail {reason : Reason} {x : α} : ¬(fail reason).Passes x := by simp [Passes, fail]

@[simp] theorem not_passes_failAt {step : String} {reason : Reason} {x : α} : ¬(failAt step reason).Passes x := by
  simp [Passes, failAt]

@[simp] theorem passes_under {c : Checked α} {step : String} {x : α} : (c.under step).Passes x ↔ c.Passes x := by
  simp [Passes, under]

@[simp] theorem passes_ofOption {reason : Reason} {o : Option α} {x : α} :
    (ofOption reason o).Passes x ↔ o = some x := by
  cases o <;> simp [ofOption]

@[simp] theorem passes_noting {found : List Violation} {c : Checked α} {x : α} :
    (c.noting found).Passes x ↔ found = [] ∧ c.Passes x := by
  simp only [Passes, noting, List.append_eq_nil_iff]
  exact and_left_comm

theorem passes_map {c : Checked α} {f : α → β} {y : β} : (c.map f).Passes y ↔ ∃ x, c.Passes x ∧ f x = y := by
  obtain ⟨value, found⟩ := c
  cases value <;> simp [Passes, map, and_comm]

theorem passes_andThen {c : Checked α} {next : α → Checked β} {y : β} :
    (c.andThen next).Passes y ↔ ∃ x, c.Passes x ∧ (next x).Passes y := by
  obtain ⟨value, found⟩ := c
  cases value with
  | none => simp [Passes, andThen]
  | some x =>
    simp only [Passes, andThen, List.append_eq_nil_iff, Option.some.injEq]
    constructor
    · rintro ⟨given, nothing, nothing_next⟩
      exact ⟨x, ⟨rfl, nothing⟩, given, nothing_next⟩
    · rintro ⟨_, ⟨rfl, nothing⟩, given, nothing_next⟩
      exact ⟨given, nothing, nothing_next⟩

theorem found_andThen {c : Checked α} {next : α → Checked β} (nothing : ∀ x, c.value = some x → (next x).found = []) :
    (c.andThen next).found = c.found := by
  obtain ⟨_ | x, found⟩ := c
  · rfl
  · change found ++ (next x).found = found
    rw [nothing x rfl, List.append_nil]

theorem passes_both {f : α → β → γ} {a : Checked α} {b : Checked β} {z : γ} :
    (both f a b).Passes z ↔ ∃ x y, a.Passes x ∧ b.Passes y ∧ f x y = z := by
  obtain ⟨left, found_left⟩ := a
  obtain ⟨right, found_right⟩ := b
  cases left with
  | none => simp [Passes, both]
  | some x =>
    cases right with
    | none => simp [Passes, both]
    | some y =>
      simp only [Passes, both, List.append_eq_nil_iff, Option.some.injEq]
      constructor
      · rintro ⟨same, nothing_left, nothing_right⟩
        exact ⟨x, y, ⟨rfl, nothing_left⟩, ⟨rfl, nothing_right⟩, same⟩
      · rintro ⟨_, _, ⟨rfl, nothing_left⟩, ⟨rfl, nothing_right⟩, same⟩
        exact ⟨same, nothing_left, nothing_right⟩

theorem passes_items {check : α → Checked β} {start : Nat} {xs : List α} {ys : List β} :
    (items check start xs).Passes ys ↔ List.Forall₂ (fun x y => (check x).Passes y) xs ys := by
  induction xs generalizing start ys with
  | nil =>
    rw [items, passes_ok, List.forall₂_nil_left_iff]
    exact eq_comm
  | cons x rest ih =>
    rw [items, passes_both, List.forall₂_cons_left_iff]
    constructor
    · rintro ⟨y, others, first, more, rfl⟩
      exact ⟨y, others, passes_under.1 first, ih.1 more, rfl⟩
    · rintro ⟨y, others, first, more, rfl⟩
      exact ⟨y, others, passes_under.2 first, ih.2 more, rfl⟩

end Screener.Filter.Checked
