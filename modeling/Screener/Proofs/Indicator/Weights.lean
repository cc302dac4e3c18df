import Mathlib

/-! Weighted means of rational numbers. The weights are not negative and make one in all, so a mean lies between the least
and the greatest of its numbers, and it moves with them when all of them are stretched and shifted. -/
namespace Screener

/-- The share that each number of a list has in their mean, in order. -/
structure Weights where
  parts : List ℚ
  nonneg : ∀ part ∈ parts, 0 ≤ part
  total : parts.sum = 1

/-- Not below the least of the numbers and not above the greatest. -/
def Between (xs : List ℚ) (x : ℚ) : Prop :=
  ∃ least greatest, xs.min? = some least ∧ xs.max? = some greatest ∧ least ≤ x ∧ x ≤ greatest

namespace Weights

def size (weights : Weights) : Nat := weights.parts.length

def dot (parts xs : List ℚ) : ℚ := (List.zipWith (· * ·) parts xs).sum

def mean (weights : Weights) (xs : List ℚ) : ℚ := dot weights.parts xs

theorem dot_cons (part x : ℚ) (parts xs : List ℚ) : dot (part :: parts) (x :: xs) = part * x + dot parts xs := by
  rw [dot, List.zipWith_cons_cons, List.sum_cons, dot]

private theorem dot_append {left right xs ys : List ℚ} (fits : left.length = xs.length) :
    dot (left ++ right) (xs ++ ys) = dot left xs + dot right ys := by
  rw [dot, List.zipWith_append fits, List.sum_append, dot, dot]

private theorem dot_map_mul (c : ℚ) (parts xs : List ℚ) : dot (parts.map (c * ·)) xs = c * dot parts xs := by
  induction parts generalizing xs with
  | nil => simp [dot]
  | cons part parts ih =>
    cases xs with
    | nil => simp [dot]
    | cons x xs =>
      rw [List.map_cons, dot_cons, dot_cons, ih]
      ring

private theorem dot_affine {parts xs : List ℚ} (fits : parts.length = xs.length) (a b : ℚ) :
    dot parts (xs.map fun x => a * x + b) = a * dot parts xs + b * parts.sum := by
  induction parts generalizing xs with
  | nil => simp [dot]
  | cons part parts ih =>
    cases xs with
    | nil => cases fits
    | cons x xs =>
      rw [List.map_cons, dot_cons, dot_cons, ih (Nat.succ.inj fits), List.sum_cons]
      ring

theorem dot_replicate (c : ℚ) (xs : List ℚ) : dot (List.replicate xs.length c) xs = c * xs.sum := by
  induction xs with
  | nil => simp [dot]
  | cons x xs ih => rw [List.length_cons, List.replicate_succ, dot_cons, ih, List.sum_cons, mul_add]

private theorem mul_sum_le_dot {parts xs : List ℚ} (fits : parts.length = xs.length) (nonneg : ∀ part ∈ parts, 0 ≤ part)
    {least : ℚ} (bounded : ∀ x ∈ xs, least ≤ x) : least * parts.sum ≤ dot parts xs := by
  induction parts generalizing xs with
  | nil => simp [dot]
  | cons part parts ih =>
    cases xs with
    | nil => cases fits
    | cons x xs =>
      obtain ⟨first_nonneg, nonneg⟩ := List.forall_mem_cons.1 nonneg
      obtain ⟨first_bounded, bounded⟩ := List.forall_mem_cons.1 bounded
      have rest := ih (Nat.succ.inj fits) nonneg bounded
      have first : part * least ≤ part * x := mul_le_mul_of_nonneg_left first_bounded first_nonneg
      rw [dot_cons, List.sum_cons, mul_add, mul_comm least part]
      exact add_le_add first rest

section
variable {weights : Weights} {xs : List ℚ}

theorem mean_affine (fits : weights.size = xs.length) (a b : ℚ) :
    weights.mean (xs.map fun x => a * x + b) = a * weights.mean xs + b := by
  rw [mean, dot_affine fits, weights.total, mul_one, mean]

private theorem le_mean (fits : weights.size = xs.length) {least : ℚ} (bounded : ∀ x ∈ xs, least ≤ x) :
    least ≤ weights.mean xs := by
  have bound := mul_sum_le_dot fits weights.nonneg bounded
  rwa [weights.total, mul_one] at bound

private theorem mean_le (fits : weights.size = xs.length) {greatest : ℚ} (bounded : ∀ x ∈ xs, x ≤ greatest) :
    weights.mean xs ≤ greatest := by
  have mirrored : -greatest ≤ weights.mean (xs.map fun x => -1 * x + 0) := by
    refine le_mean (by rw [fits, List.length_map]) fun y member => ?_
    obtain ⟨x, inside, rfl⟩ := List.mem_map.1 member
    linarith [bounded x inside]
  rw [mean_affine fits] at mirrored
  linarith

private theorem size_pos (weights : Weights) : 0 < weights.size := by
  refine List.length_pos_iff.2 fun none_left => ?_
  have total := weights.total
  rw [none_left, List.sum_nil] at total
  exact zero_ne_one total

theorem between_mean (fits : weights.size = xs.length) : Between xs (weights.mean xs) := by
  have some_left : xs ≠ [] := List.ne_nil_of_length_pos (fits ▸ weights.size_pos)
  obtain ⟨least, isLeast⟩ := Option.isSome_iff_exists.1 (List.isSome_min?_of_ne_nil some_left)
  obtain ⟨greatest, isGreatest⟩ := Option.isSome_iff_exists.1 (List.isSome_max?_of_ne_nil some_left)
  refine ⟨least, greatest, isLeast, isGreatest, le_mean fits fun x inside => ?_, mean_le fits fun x inside => ?_⟩
  · exact (List.min?_eq_some_iff.1 isLeast).2 x inside
  · exact (List.max?_eq_some_iff.1 isGreatest).2 x inside

end

def equal (n : Nat) (used : 0 < n) : Weights where
  parts := List.replicate n (n : ℚ)⁻¹
  nonneg part member := by
    rw [List.eq_of_mem_replicate member]
    positivity
  total := by
    have counted : (n : ℚ) ≠ 0 := by positivity
    rw [List.sum_replicate, nsmul_eq_mul, mul_inv_cancel₀ counted]

private theorem sum_range_succ_eq (n : Nat) :
    ((List.range n).map fun k : Nat => (k : ℚ) + 1).sum = n * (n + 1) / 2 := by
  induction n with
  | zero => simp
  | succ n ih =>
    rw [List.range_succ, List.map_append, List.sum_append, ih]
    push_cast
    simp only [List.map_cons, List.map_nil, List.sum_singleton]
    ring

def rising (n : Nat) (used : 0 < n) : Weights where
  parts := (List.range n).map fun k : Nat => ((n * (n + 1) / 2 : ℚ)⁻¹) * ((k : ℚ) + 1)
  nonneg part member := by
    obtain ⟨k, -, rfl⟩ := List.mem_map.1 member
    positivity
  total := by
    have counted : (n * (n + 1) / 2 : ℚ) ≠ 0 := by positivity
    rw [List.sum_map_mul_left, sum_range_succ_eq, inv_mul_cancel₀ counted]

def followed (weights : Weights) (share : ℚ) (least : 0 ≤ share) (most : share ≤ 1) : Weights where
  parts := weights.parts.map ((1 - share) * ·) ++ [share]
  nonneg part member := by
    rcases List.mem_append.1 member with earlier | last
    · obtain ⟨old, inside, rfl⟩ := List.mem_map.1 earlier
      exact mul_nonneg (sub_nonneg.2 most) (weights.nonneg old inside)
    · rwa [List.mem_singleton.1 last]
  total := by
    rw [List.sum_append, List.sum_map_mul_left, List.map_id', weights.total, List.sum_singleton]
    ring

theorem mean_followed {weights : Weights} {share : ℚ} (least : 0 ≤ share) (most : share ≤ 1) {xs : List ℚ} (x : ℚ)
    (fits : weights.size = xs.length) :
    (weights.followed share least most).mean (xs ++ [x]) = weights.mean xs + share * (x - weights.mean xs) := by
  rw [mean, followed, dot_append (by rwa [List.length_map]), dot_map_mul, dot_cons, mean]
  simp only [dot, List.zipWith_nil_left, List.sum_nil]
  ring

theorem share_nonneg (n : Nat) : (0 : ℚ) ≤ 2 / (n + 1) := by positivity

theorem share_le_one {n : Nat} (used : 0 < n) : (2 : ℚ) / (n + 1) ≤ 1 := by
  have counted : (1 : ℚ) ≤ n := by exact_mod_cast used
  rw [div_le_one (by positivity)]
  linarith

/-- The first `n` numbers begin with the same weight; each of the `further` ones takes its share from all before it. -/
def exponential (n : Nat) (used : 0 < n) : Nat → Weights
  | 0 => equal n used
  | further + 1 => (exponential n used further).followed (2 / (n + 1)) (share_nonneg n) (share_le_one used)

@[simp] theorem size_equal (n : Nat) (used : 0 < n) : (equal n used).size = n := List.length_replicate

@[simp] theorem size_rising (n : Nat) (used : 0 < n) : (rising n used).size = n := by
  rw [size, rising, List.length_map, List.length_range]

@[simp] theorem size_exponential (n : Nat) (used : 0 < n) (further : Nat) :
    (exponential n used further).size = n + further := by
  induction further with
  | zero => exact size_equal n used
  | succ further ih =>
    rw [exponential, size, followed, List.length_append, List.length_map, List.length_singleton, ← Nat.add_assoc, ← ih]
    rfl

end Weights
end Screener
