import Screener.Proofs.Text.Trim

/-! Letter case of plain texts. Letters of the alphabet A to Z have the same lower case under both mappings, so for texts
without any other letters it does not matter which of them is taken, nor for what they are compared with. -/
namespace Screener.Text

def IsPlain (text : String) : Prop := ∀ c ∈ text.toList, c.toNat < 128

private theorem lowerChar_of_plain {c : Char} (plain : c.toNat < 128) : lowerChar c = [c.toLower] := by
  have table : ∀ n < 128, lowerChar (Char.ofNat n) = [(Char.ofNat n).toLower] := by decide +kernel
  simpa only [Char.ofNat_toNat] using table c.toNat plain

private theorem lowerFrom_of_plain (before : List Char) {cs : List Char} (plain : ∀ c ∈ cs, c.toNat < 128) :
    lowerFrom before cs = cs.map Char.toLower := by
  induction cs generalizing before with
  | nil => rfl
  | cons c rest ih =>
    obtain ⟨first, others⟩ := List.forall_mem_cons.1 plain
    have no_sigma : c.toNat ≠ 0x3A3 := by omega
    rw [lowerFrom, if_neg no_sigma, lowerChar_of_plain first, ih _ others]
    rfl

theorem lower_of_plain {text : String} (plain : IsPlain text) : lower text = lowerAscii text := by
  rw [lower, lowerFrom_of_plain [] plain, lowerAscii]

theorem isPlain_trim {text : String} (plain : IsPlain text) : IsPlain (trim text) :=
  fun c inside => plain c (mem_of_mem_trim inside)

/-- The upper case of a plain text differs from it in the case of the letters A to Z alone. -/
theorem sameIgnoringCase_upper {text : String} (plain : IsPlain text) : sameIgnoringCase text (upper text) := by
  have table : ∀ n < 128, (upperChar (Char.ofNat n)).map Char.toLower = [(Char.ofNat n).toLower] := by decide +kernel
  rw [sameIgnoringCase, beq_iff_eq, lowerAscii, lowerAscii, upper, String.toList_ofList, List.map_flatMap]
  refine congrArg String.ofList ?_
  rw [List.map_eq_flatMap]
  refine List.flatMap_congr fun c inside => ?_
  simpa only [Char.ofNat_toNat] using (table c.toNat (plain c inside)).symm

end Screener.Text
