import Mathlib.Data.List.DropRight
import Screener.Text.Blank
import Screener.Text.Case

/-! Texts without blanks around them. Removing the blanks once is enough, and letter case has nothing to do with
blanks. -/
namespace Screener.Text

private theorem trimChars_eq (cs : List Char) : trimChars cs = (cs.dropWhile isBlank).rdropWhile isBlank := rfl

private theorem trimChars_trimChars (cs : List Char) : trimChars (trimChars cs) = trimChars cs := by
  -- Only the end was cut off after the start, so the first character is still the one that stopped the blanks.
  have first : (trimChars cs).dropWhile isBlank = trimChars cs := by
    rw [List.dropWhile_eq_self_iff]
    intro nonempty
    have shortened : trimChars cs <+: cs.dropWhile isBlank := List.rdropWhile_prefix isBlank _
    rw [shortened.getElem nonempty]
    exact List.dropWhile_get_zero_not isBlank cs (nonempty.trans_le shortened.length_le)
  rw [trimChars_eq (trimChars cs), first, trimChars_eq, List.rdropWhile_idempotent]

theorem trimChars_eq_self {cs : List Char} (first : ∀ c ∈ cs.head?, isBlank c = false)
    (last : ∀ c ∈ cs.getLast?, isBlank c = false) : trimChars cs = cs := by
  have start : cs.dropWhile isBlank = cs := by
    cases cs with
    | nil => rfl
    | cons c rest => exact List.dropWhile_cons_of_neg (by simp [first c rfl])
  rw [trimChars_eq, start, List.rdropWhile_eq_self_iff]
  intro nonempty
  simp [last _ (List.getLast?_eq_some_getLast nonempty)]

theorem trim_trim (s : String) : trim (trim s) = trim s := by
  rw [trim, trim, String.toList_ofList, trimChars_trimChars]

theorem mem_of_mem_trim {s : String} {c : Char} (inside : c ∈ (trim s).toList) : c ∈ s.toList := by
  rw [trim, String.toList_ofList, trimChars_eq] at inside
  exact (List.dropWhile_sublist _).subset ((List.rdropWhile_prefix isBlank _).subset inside)

private theorem toNat_toLower_of_capital {c : Char} (capital : 65 ≤ c.toNat ∧ c.toNat ≤ 90) :
    c.toLower.toNat = c.toNat + 32 := by
  have letter : 'A'.val ≤ c.val ∧ c.val ≤ 'Z'.val :=
    ⟨UInt32.le_iff_toNat_le.2 capital.1, UInt32.le_iff_toNat_le.2 capital.2⟩
  have shifted : c.toLower.val = c.val + 32 := congrArg Char.val (dif_pos letter)
  have sum : (c.val + 32).toNat = (c.toNat + 32) % 2 ^ 32 := UInt32.toNat_add c.val 32
  rw [Char.toNat, shifted, sum]
  exact Nat.mod_eq_of_lt (by omega)

private theorem toLower_of_not_capital {c : Char} (other : ¬(65 ≤ c.toNat ∧ c.toNat ≤ 90)) : c.toLower = c := by
  refine dif_neg fun letter => other ?_
  exact ⟨UInt32.le_iff_toNat_le.1 letter.1, UInt32.le_iff_toNat_le.1 letter.2⟩

private theorem isBlank_toLower (c : Char) : isBlank c.toLower = isBlank c := by
  by_cases capital : 65 ≤ c.toNat ∧ c.toNat ≤ 90
  · have letter {n : Nat} (range : 65 ≤ n ∧ n ≤ 122) (d : Char) (code : d.toNat = n) : isBlank d = false := by
      simp [isBlank, code]
      omega
    rw [letter (by omega) c.toLower (toNat_toLower_of_capital capital), letter (by omega) c rfl]
  · rw [toLower_of_not_capital capital]

private theorem toLower_toLower (c : Char) : c.toLower.toLower = c.toLower := by
  by_cases capital : 65 ≤ c.toNat ∧ c.toNat ≤ 90
  · refine toLower_of_not_capital ?_
    rw [toNat_toLower_of_capital capital]
    omega
  · rw [toLower_of_not_capital capital, toLower_of_not_capital capital]

private theorem trimChars_map {f : Char → Char} (keeps : ∀ c, isBlank (f c) = isBlank c) (cs : List Char) :
    trimChars (cs.map f) = (trimChars cs).map f := by
  have same : isBlank ∘ f = isBlank := funext keeps
  have skip (ds : List Char) : skipBlanks (ds.map f) = (skipBlanks ds).map f := by
    rw [skipBlanks, List.dropWhile_map, same]
    rfl
  rw [trimChars, skip, ← List.map_reverse, skip, ← List.map_reverse]
  rfl

theorem trim_lowerAscii (s : String) : trim (lowerAscii s) = lowerAscii (trim s) := by
  rw [trim, lowerAscii, lowerAscii, trim, String.toList_ofList, String.toList_ofList, trimChars_map isBlank_toLower]

theorem lowerAscii_lowerAscii (s : String) : lowerAscii (lowerAscii s) = lowerAscii s := by
  have twice : Char.toLower ∘ Char.toLower = Char.toLower := funext toLower_toLower
  rw [lowerAscii, lowerAscii, String.toList_ofList, List.map_map, twice]

theorem lowerAscii_eq_empty_iff {s : String} : lowerAscii s = "" ↔ s = "" := by
  simp [lowerAscii]

end Screener.Text
