import Mathlib.Data.List.Lex
import Screener.Dictionary

/-! The order of texts is the order of their bytes. A character with a greater code has a first byte that is greater, or
it is as long and the bytes after that decide. -/
namespace Screener.Text

def bytes (s : String) : List UInt8 := s.toUTF8.data.toList

private theorem bytes_eq (s : String) : bytes s = s.toList.flatMap String.utf8EncodeChar := by
  have whole : s.toUTF8 = s.toByteArray := rfl
  rw [bytes, whole, ← String.utf8Encode_toList, List.utf8Encode, List.data_toByteArray]

private theorem toNat_lt (c : Char) : c.val.toNat < 1114112 := by
  rcases c.valid with low | ⟨-, high⟩
  · exact Nat.lt_trans low (by decide)
  · exact high

theorem toUInt8_lt_iff {m n : Nat} (small : m < 256) (small' : n < 256) : m.toUInt8 < n.toUInt8 ↔ m < n := by
  rw [UInt8.lt_iff_toNat_lt, UInt8.toNat_ofNat', UInt8.toNat_ofNat', Nat.mod_eq_of_lt small, Nat.mod_eq_of_lt small']

theorem toUInt8_eq_iff {m n : Nat} (small : m < 256) (small' : n < 256) : m.toUInt8 = n.toUInt8 ↔ m = n := by
  rw [← UInt8.toNat_inj, UInt8.toNat_ofNat', UInt8.toNat_ofNat', Nat.mod_eq_of_lt small, Nat.mod_eq_of_lt small']

private theorem utf8EncodeChar_lt {a b : Char} (less : a < b) (behind behind' : List UInt8) :
    String.utf8EncodeChar a ++ behind < String.utf8EncodeChar b ++ behind' := by
  have codes : a.val.toNat < b.val.toNat := less
  have most := toNat_lt b
  -- The bytes hold the digits of the code to the base 64.
  have third (k : Nat) : k / 4096 = k / 64 / 64 := (Nat.div_div_eq_div_mul k 64 64).symm
  have fourth (k : Nat) : k / 262144 = k / 64 / 64 / 64 := by rw [Nat.div_div_eq_div_mul, Nat.div_div_eq_div_mul]
  simp only [String.utf8EncodeChar, third, fourth]
  generalize a.val.toNat = m at codes
  generalize b.val.toNat = n at codes most
  split_ifs <;> simp (disch := omega) only [List.cons_append, List.nil_append, List.cons_lt_cons_iff, toUInt8_lt_iff,
    toUInt8_eq_iff] <;> omega

private theorem flatMap_utf8EncodeChar_lt {cs cs' : List Char} (less : cs < cs') :
    cs.flatMap String.utf8EncodeChar < cs'.flatMap String.utf8EncodeChar := by
  induction less with
  | @nil c rest =>
    have nonempty : String.utf8EncodeChar c ≠ [] := List.ne_nil_of_length_pos (by
      rw [String.length_utf8EncodeChar]
      exact c.utf8Size_pos)
    obtain ⟨first, others, shape⟩ := List.exists_cons_of_ne_nil nonempty
    rw [List.flatMap_nil, List.flatMap_cons, shape]
    exact List.nil_lt_cons _ _
  | rel first => exact utf8EncodeChar_lt first _ _
  | @cons c _ _ _ ih => exact ih.append_left _ (String.utf8EncodeChar c)

theorem lt_iff_bytes_lt {s t : String} : s < t ↔ bytes s < bytes t := by
  have forward {s t : String} (less : s < t) : bytes s < bytes t := by
    rw [bytes_eq, bytes_eq]
    exact flatMap_utf8EncodeChar_lt (String.lt_iff.1 less)
  refine ⟨forward, fun less => ?_⟩
  by_contra other
  by_cases same : s = t
  · exact List.lt_irrefl _ (same ▸ less)
  · exact List.lt_asymm less (forward (Dictionary.lt_of_not_lt other same))

end Screener.Text
