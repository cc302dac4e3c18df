import Screener.Proofs.Except
import Screener.Size

/-! Computing with words and slices. A step of a machine has no result if a number does not fit into its word, if a slice
does not lie in the list that it is cut from, or if nothing stands where something is looked up. -/
namespace Screener.Machine
variable {α : Type}

inductive Fault where
  | overflow
  | underflow
  | badPlace
  | badSlice
  | badLength
  | badKey
  deriving Repr, DecidableEq

abbrev Step (α : Type) := Except Fault α

def add (a b : Nat) : Step Nat := if a + b ≤ Size.most then .ok (a + b) else .error .overflow

def sub (a b : Nat) : Step Nat := if b ≤ a then .ok (a - b) else .error .underflow

def element (xs : List α) (i : Nat) : Step α :=
  match xs[i]? with
  | some x => .ok x
  | none => .error .badPlace

/-- The elements from one place up to another, which is left out. -/
def slice (xs : List α) (first last : Nat) : Step (List α) :=
  if first ≤ last ∧ last ≤ xs.length then .ok ((xs.take last).drop first) else .error .badSlice

def put (xs : List α) (i : Nat) (x : α) : Step (List α) := if i < xs.length then .ok (xs.set i x) else .error .badPlace

def copy (xs : List α) (first : Nat) (ys : List α) : Step (List α) := do
  let slots ← slice xs first xs.length
  if slots.length = ys.length then return xs.take first ++ ys else .error .badLength

/-- Numbers the elements with a counter that goes up to `most`. It goes on before it hands out its number. -/
def number (most first : Nat) : List α → Step (List (α × Nat))
  | [] => .ok []
  | x :: rest => do
    let next ← if first < most then .ok (first + 1) else .error .overflow
    let others ← number most next rest
    return (x, first) :: others

variable {a b i first last : Nat} {xs ys : List α} {x : α}

theorem add_eq (fits : a + b ≤ Size.most) : add a b = .ok (a + b) := if_pos fits

theorem sub_eq (less : b ≤ a) : sub a b = .ok (a - b) := if_pos less

theorem element_eq (here : xs[i]? = some x) : element xs i = .ok x := by rw [element, here]

theorem slice_eq (ordered : first ≤ last) (inside : last ≤ xs.length) :
    slice xs first last = .ok ((xs.take last).drop first) := if_pos ⟨ordered, inside⟩

theorem slice_to_end (inside : first ≤ xs.length) : slice xs first xs.length = .ok (xs.drop first) := by
  rw [slice_eq inside (Nat.le_refl _), List.take_length]

theorem put_eq (inside : i < xs.length) : put xs i x = .ok (xs.set i x) := if_pos inside

theorem copy_eq (same : first + ys.length = xs.length) : copy xs first ys = .ok (xs.take first ++ ys) := by
  have slots : (xs.drop first).length = ys.length := by
    rw [List.length_drop]
    omega
  rw [copy, slice_to_end (by omega), ok_bind, if_pos slots]
  rfl

theorem number_eq {most : Nat} (begun : first ≤ most) (xs : List α) :
    number most first xs = if first + xs.length ≤ most then .ok (xs.zipIdx first) else .error .overflow := by
  induction xs generalizing first with
  | nil => exact (if_pos begun).symm
  | cons x rest ih =>
    rw [number, List.length_cons]
    by_cases room : first < most
    · have shift : first + (rest.length + 1) = first + 1 + rest.length := by omega
      simp only [if_pos room, ok_bind]
      rw [ih room, shift]
      split <;> rfl
    · rw [if_neg room, if_neg (by omega)]
      rfl

theorem number_eq_ok {most : Nat} (few : first + xs.length ≤ most) : number most first xs = .ok (xs.zipIdx first) := by
  rw [number_eq (by omega), if_pos few]

theorem drop_zipIdx (xs : List α) (n first : Nat) : (xs.zipIdx first).drop n = (xs.drop n).zipIdx (first + n) := by
  induction n generalizing xs first with
  | zero => rfl
  | succ n ih =>
    cases xs with
    | nil => rfl
    | cons x rest => rw [List.zipIdx_cons, List.drop_succ_cons, List.drop_succ_cons, ih, Nat.add_right_comm, Nat.add_assoc]

theorem take_set_replicate {n : Nat} (inside : i < n) (a x : α) :
    ((List.replicate n a).set i x).take (i + 1) = List.replicate i a ++ [x] := by
  rw [List.take_add_one, List.take_set_of_le (Nat.le_refl i), List.take_replicate, Nat.min_eq_left (Nat.le_of_lt inside),
    List.getElem?_set_self (by simpa using inside)]
  rfl

end Screener.Machine
