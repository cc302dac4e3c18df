import Screener.Proofs.Text.Trim
import Screener.Settings.Scan
import Mathlib.Algebra.Ring.Int.Defs
import Mathlib.Data.List.Nodup

/-! What the text of a setting says: a whole number by its digits, or one of a few words in any case. Every reader takes
exactly the texts that say something, and gives what they say. -/
namespace Screener.Settings

def IsDigits (digits : List Char) (n : Nat) : Prop :=
  digits ≠ [] ∧ (∀ c ∈ digits, c.isDigit) ∧ Nat.ofDigitChars 10 digits 0 = n

/-- The text writes a whole number, with a sign in front of its digits or without one. -/
inductive WritesInteger (text : String) : Int → Prop
  | unsigned {n : Nat} (digits : IsDigits text.toList n) : WritesInteger text n
  | positive {cs : List Char} {n : Nat} (signed : text.toList = '+' :: cs) (digits : IsDigits cs n) : WritesInteger text n
  | negative {cs : List Char} {n : Nat} (signed : text.toList = '-' :: cs) (digits : IsDigits cs n) : WritesInteger text (-n)

private theorem whole_eq (digits : List Char) : Decimal.whole digits = Nat.ofDigitChars 10 digits 0 :=
  Nat.ofDigitChars_eq_foldl.symm

private theorem signOf_cases (cs : List Char) : (∃ rest, cs = '+' :: rest ∧ Decimal.signOf cs = (false, rest)) ∨
    (∃ rest, cs = '-' :: rest ∧ Decimal.signOf cs = (true, rest)) ∨ Decimal.signOf cs = (false, cs) := by
  unfold Decimal.signOf
  split
  · exact .inr (.inl ⟨_, rfl, rfl⟩)
  · exact .inl ⟨_, rfl, rfl⟩
  · exact .inr (.inr rfl)

private theorem signOf_of_digits {digits : List Char} {n : Nat} (written : IsDigits digits n) :
    Decimal.signOf digits = (false, digits) := by
  rcases signOf_cases digits with ⟨rest, rfl, -⟩ | ⟨rest, rfl, -⟩ | unsigned
  · exact absurd (written.2.1 '+' List.mem_cons_self) (by decide)
  · exact absurd (written.2.1 '-' List.mem_cons_self) (by decide)
  · exact unsigned

theorem writesInteger_iff {text : String} {n : Int} : WritesInteger text n ↔
    ∃ size : Nat, IsDigits (Decimal.signOf text.toList).2 size ∧
      n = if (Decimal.signOf text.toList).1 then -(size : Int) else size := by
  constructor
  · rintro (digits | ⟨signed, digits⟩ | ⟨signed, digits⟩)
    · rw [signOf_of_digits digits]
      exact ⟨_, digits, rfl⟩
    · rw [signed]
      exact ⟨_, digits, rfl⟩
    · rw [signed]
      exact ⟨_, digits, rfl⟩
  · rintro ⟨size, digits, rfl⟩
    rcases signOf_cases text.toList with ⟨rest, signed, read⟩ | ⟨rest, signed, read⟩ | read <;> rw [read] at digits ⊢
    · exact .positive signed digits
    · exact .negative signed digits
    · exact .unsigned digits

theorem integer?_eq_some_iff {text : String} {n : Int} :
    integer? text = some n ↔ WritesInteger text n ∧ -2 ^ 63 ≤ n ∧ n < 2 ^ 63 := by
  have bound : ((Nat.pow 2 63 : Nat) : Int) = 2 ^ 63 := rfl
  rw [writesInteger_iff]
  unfold integer?
  obtain ⟨negative, digits⟩ := Decimal.signOf text.toList
  simp only [whole_eq, bound]
  by_cases made : digits ≠ [] ∧ ∀ c ∈ digits, c.isDigit
  · obtain ⟨some_left, each⟩ := made
    have taken : (digits.isEmpty || !digits.all Char.isDigit) = false := by
      rw [List.isEmpty_eq_false_iff.2 some_left, List.all_eq_true.2 each]
      rfl
    have written : (∃ size : Nat, IsDigits digits size ∧ n = if negative then -(size : Int) else size) ↔
        (if negative then -(Nat.ofDigitChars 10 digits 0 : Int) else Nat.ofDigitChars 10 digits 0) = n := by
      refine ⟨?_, fun same => ⟨_, ⟨some_left, each, rfl⟩, same.symm⟩⟩
      rintro ⟨size, ⟨-, -, rfl⟩, rfl⟩
      rfl
    rw [taken, if_neg Bool.false_ne_true, written]
    generalize (if negative then -(Nat.ofDigitChars 10 digits 0 : Int) else Nat.ofDigitChars 10 digits 0) = read
    rw [Option.ite_none_right_eq_some, Option.some.injEq, and_comm]
    exact and_congr_right fun same => same ▸ Iff.rfl
  · have refused : (digits.isEmpty || !digits.all Char.isDigit) = true := by
      by_contra taken
      rw [Bool.not_eq_true, Bool.or_eq_false_iff, List.isEmpty_eq_false_iff, Bool.not_eq_false', List.all_eq_true] at taken
      exact made taken
    rw [if_pos refused]
    constructor
    · intro read
      cases read
    · rintro ⟨⟨size, written, -⟩, -⟩
      exact absurd ⟨written.1, written.2.1⟩ made

/-- The text is one of the words, in any case, and the value is the one that goes with it. -/
def MeansWord {α : Type} (words : List (String × α)) (text : String) (value : α) : Prop :=
  (Text.lowerAscii text, value) ∈ words

private theorem find?_name_of_mem {α : Type} {name : α → String} {choices : List α}
    (distinct : (choices.map name).Nodup) {choice : α}
    (inside : choice ∈ choices) : (choices.find? fun c => name c == name choice) = some choice := by
  induction choices with
  | nil => cases inside
  | cons first rest ih =>
    obtain ⟨fresh, distinct⟩ := List.nodup_cons.1 distinct
    rcases List.mem_cons.1 inside with rfl | later
    · exact List.find?_cons_of_pos (beq_self_eq_true _)
    · have other : name first ≠ name choice := fun same => fresh (same ▸ List.mem_map_of_mem later)
      rw [List.find?_cons_of_neg (by simpa using other), ih distinct later]

theorem find?_name_eq_some_iff {α : Type} {name : α → String} {choices : List α} (distinct : (choices.map name).Nodup)
    {word : String} {choice : α} : (choices.find? fun c => name c == word) = some choice ↔
      (word, choice) ∈ choices.map fun c => (name c, c) := by
  constructor
  · intro found
    have named := List.find?_some found
    exact List.mem_map.2 ⟨choice, List.mem_of_find?_eq_some found, by rw [beq_iff_eq.1 named]⟩
  · intro listed
    obtain ⟨c, inside, same⟩ := List.mem_map.1 listed
    cases same
    exact find?_name_of_mem distinct inside

def booleanWords : List (String × Bool) :=
  [("true", true), ("yes", true), ("on", true), ("1", true), ("false", false), ("no", false), ("off", false), ("0", false)]

theorem boolean?_eq_some_iff {text : String} {b : Bool} : boolean? text = some b ↔ MeansWord booleanWords text b := by
  unfold boolean? MeansWord booleanWords
  generalize Text.lowerAscii text = word
  simp only [List.contains_iff_mem, List.mem_cons, List.not_mem_nil, or_false, Prod.mk.injEq]
  split
  · rename_i yes
    rcases yes with rfl | rfl | rfl | rfl <;> simp [eq_comm]
  · split
    · rename_i no
      rcases no with rfl | rfl | rfl | rfl <;> simp [eq_comm]
    · simp_all

end Screener.Settings
