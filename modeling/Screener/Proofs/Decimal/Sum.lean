import Mathlib
import Screener.Proofs.Decimal.Order
import Screener.Proofs.Decimal.Rounding

/-! Sums of doubles that are not rounded. Such sums are associative down to the sign of a zero, although sums of doubles
are not: each double is told by what it adds, and where nothing is rounded these add up. -/
namespace Screener.Decimal
open Float.Model (Format UnpackedFloat)
open Float.Model.UnpackedFloat (Sign)

namespace Binary

def bits : Binary → Nat
  | .finite negative significand exponent =>
    (if negative then 2 ^ 63 else 0) + ((exponent + 1074).toNat * 2 ^ 52 + significand)
  | .infinite negative => (if negative then 2 ^ 63 else 0) + 2047 * 2 ^ 52
  | .undefined => 2047 * 2 ^ 52 + 2 ^ 51

end Binary

private theorem toBits_undefined {x : Float} (gap : x.isNaN = true) : x.toBits.toNat = 2047 * 2 ^ 52 + 2 ^ 51 := by
  have unpacked := gap_iff.1 gap
  change UnpackedFloat.unpack Format.binary64 x.toModel.toBits.toBitVec = _ at unpacked
  have filled : x.toModel.toBits.toBitVec = UnpackedFloat.packedNaN Format.binary64 := by
    unfold UnpackedFloat.unpack at unpacked
    dsimp only at unpacked
    split at unpacked
    · rename_i top
      split at unpacked
      · cases unpacked
      · rename_i fraction
        exact x.toModel.valid.eq_packedNaN top fraction
    · split at unpacked
      · split at unpacked <;> cases unpacked
      · cases unpacked
  change x.toModel.toBits.toBitVec.toNat = _
  rw [filled]
  rfl

private theorem toBits_eq (x : Float) : x.toBits.toNat = (Binary.ofFloat x).bits := by
  by_cases gap : x.isNaN = true
  · rw [toBits_undefined gap, (isNaN_iff_undefined x).1 gap, Binary.bits]
  · have number := mt (isNaN_iff_undefined x).2 gap
    have small : x.toBits.toNat < 2 ^ 64 := x.toBits.toBitVec.isLt
    have leading : leadingBit = 2 ^ 52 := rfl
    have split_up : x.toBits.toNat = (if x.toBits.toNat / Nat.pow 2 63 == 1 then 2 ^ 63 else 0) +
        (x.toBits.toNat / leadingBit % Nat.pow 2 11 * 2 ^ 52 + x.toBits.toNat % leadingBit) := by
      change _ = (if (_ / 2 ^ 63 == 1) = true then 2 ^ 63 else 0) + (_ / 2 ^ 52 % 2 ^ 11 * 2 ^ 52 + _ % 2 ^ 52)
      simp only [beq_iff_eq]
      split <;> omega
    unfold Binary.ofFloat at number ⊢
    dsimp only at number ⊢
    generalize x.toBits.toNat / leadingBit % Nat.pow 2 11 = biased at number split_up ⊢
    generalize x.toBits.toNat % leadingBit = fraction at number split_up ⊢
    split
    · rename_i top
      rw [if_pos top] at number
      split
      · rename_i empty
        rwa [top, empty] at split_up
      · rename_i filled
        exact absurd (if_neg filled) number
    · split
      · rename_i least
        rwa [least] at split_up
      · rename_i normal
        have exponent : (leastExponent + ((biased - 1 : Nat) : Int) + 1074).toNat = biased - 1 := by
          simp only [leastExponent]
          omega
        have carried : biased * 2 ^ 52 = (biased - 1) * 2 ^ 52 + 2 ^ 52 := by
          rw [← Nat.succ_mul, Nat.succ_eq_add_one, Nat.sub_add_cancel (Nat.pos_of_ne_zero normal)]
        rw [Binary.bits, exponent, leading, ← Nat.add_assoc _ (2 ^ 52), ← carried]
        exact split_up

private theorem ofFloat_injective {x y : Float} (same : Binary.ofFloat x = Binary.ofFloat y) : x = y := by
  have bits : x.toBits.toNat = y.toBits.toNat := by rw [toBits_eq, toBits_eq, same]
  obtain ⟨⟨x_bits, x_valid⟩⟩ := x
  obtain ⟨⟨y_bits, y_valid⟩⟩ := y
  obtain rfl : x_bits = y_bits := UInt64.toNat_inj.1 bits
  rfl

private theorem parts_eq_of_size {b c : Bool} {m n : Nat} {e f : Int} (left : (Binary.finite b m e).Canonical)
    (right : (Binary.finite c n f).Canonical) (same : (m : ℚ) * 2 ^ e = n * 2 ^ f) : m = n ∧ e = f := by
  have order := compare_sizes left right
  rw [compare_eq_iff_eq.2 same, Ordering.then_eq_eq, compare_eq_iff_eq, compare_eq_iff_eq] at order
  exact order.symm

/-- What a double adds to a sum that is not rounded. The negative zero adds nothing, while the other zero leaves no sum
negative zero. -/
inductive Addend where
  | nothing
  | number (a : ℚ)
  | infinite (negative : Bool)
  | undefined

namespace Addend

def add : Addend → Addend → Addend
  | .nothing, b => b
  | a, .nothing => a
  | .undefined, _ => .undefined
  | _, .undefined => .undefined
  | .infinite negative, .infinite other => if negative = other then .infinite negative else .undefined
  | .infinite negative, .number _ => .infinite negative
  | .number _, .infinite negative => .infinite negative
  | .number a, .number b => .number (a + b)

theorem add_assoc (a b c : Addend) : (a.add b).add c = a.add (b.add c) := by
  rcases a with _ | a | (_ | _) | _ <;> rcases b with _ | b | (_ | _) | _ <;> rcases c with _ | c | (_ | _) | _ <;>
    simp [add, Rat.add_assoc]

end Addend

def Binary.addend : Binary → Addend
  | .finite negative significand exponent =>
    if negative ∧ significand = 0 then .nothing else .number (signed negative (significand * 2 ^ exponent))
  | .infinite negative => .infinite negative
  | .undefined => .undefined

private theorem size_eq_of_addend {c d : Bool} {m n : Nat} {e f : Int}
    (same : (Binary.finite c m e).addend = (Binary.finite d n f).addend) : (m : ℚ) * 2 ^ e = n * 2 ^ f := by
  simp only [Binary.addend] at same
  split at same
  · rename_i none_left
    split at same
    · rename_i none_right
      rw [none_left.2, none_right.2, Nat.cast_zero, zero_mul, zero_mul]
    · cases same
  · split at same
    · cases same
    · have values := congrArg abs (Addend.number.inj same)
      have left : (0 : ℚ) ≤ m * 2 ^ e := by positivity
      have right : (0 : ℚ) ≤ n * 2 ^ f := by positivity
      rwa [abs_signed, abs_signed, abs_of_nonneg left, abs_of_nonneg right] at values

private theorem negative_eq_of_addend {c d : Bool} {m : Nat} {e : Int}
    (same : (Binary.finite c m e).addend = (Binary.finite d m e).addend) : c = d := by
  have apart (positive : (Binary.finite false m e).addend = (Binary.finite true m e).addend) : False := by
    simp only [Binary.addend, Bool.false_eq_true, false_and, if_false, true_and] at positive
    split at positive
    · cases positive
    · rename_i filled
      have values : (m : ℚ) * 2 ^ e = -(m * 2 ^ e) := Addend.number.inj positive
      have size : (0 : ℚ) < m * 2 ^ e := by
        have : 0 < m := Nat.pos_of_ne_zero filled
        positivity
      linarith
  cases c <;> cases d
  · rfl
  · exact absurd same apart
  · exact absurd same.symm apart
  · rfl

private theorem eq_of_addend {p q : Binary} (p_canonical : p.Canonical) (q_canonical : q.Canonical)
    (same : p.addend = q.addend) : p = q := by
  cases p with
  | undefined =>
    cases q with
    | undefined => rfl
    | infinite => cases same
    | finite =>
      simp only [Binary.addend] at same
      split at same <;> cases same
  | infinite c =>
    cases q with
    | undefined => cases same
    | infinite d => exact congrArg Binary.infinite (Addend.infinite.inj same)
    | finite =>
      simp only [Binary.addend] at same
      split at same <;> cases same
  | finite c m e =>
    cases q with
    | undefined | infinite =>
      simp only [Binary.addend] at same
      split at same <;> cases same
    | finite d n f =>
      obtain ⟨rfl, rfl⟩ := parts_eq_of_size p_canonical q_canonical (size_eq_of_addend same)
      rw [negative_eq_of_addend same]

def addend (x : Float) : Addend := (Binary.ofFloat x).addend

theorem addend_injective {x y : Float} (same : addend x = addend y) : x = y :=
  ofFloat_injective (eq_of_addend (canonical_ofFloat x) (canonical_ofFloat y) same)

/-- The sum of two doubles is not rounded. There is nothing to round in sums of infinities and of what is no number. -/
def ExactSum (x y : Float) : Prop :=
  ∀ a b, rational? x = some a → rational? y = some b → rational? (x + y) = some (a + b)

private theorem add_eq_pack (x y : Float) :
    x + y = .ofModel (.pack (UnpackedFloat.add Format.binary64 (Binary.ofFloat x).unpacked (Binary.ofFloat y).unpacked)) := by
  rw [← unpack_eq, ← unpack_eq]
  rfl

private theorem addend_of_rational {z : Float} {a : ℚ} (value : rational? z = some a) :
    addend z = .number a ∨ addend z = .nothing ∧ a = 0 := by
  obtain ⟨negative, significand, exponent, parts, rfl⟩ := rational?_eq_some_iff.1 value
  rw [addend, parts, Binary.addend]
  split
  · rename_i none_left
    refine .inr ⟨rfl, ?_⟩
    rw [none_left.2, Nat.cast_zero, zero_mul, signed_zero]
  · exact .inl rfl

private theorem addend_infinity (negative : Bool) :
    addend (.ofModel (.pack (.infinity (signOf? negative)))) = .infinite negative := by
  cases negative <;> rfl

private theorem addend_undefined : addend (.ofModel (.pack .notANumber)) = .undefined := rfl

private theorem addend_zero (negative : Bool) :
    addend (.ofModel (.pack (.zero (signOf? negative)))) = if negative then .nothing else .number 0 := by
  have parts : Binary.ofFloat (.ofModel (.pack (.zero (signOf? negative)))) = .finite negative 0 (-1074) := by
    cases negative <;> rfl
  rw [addend, parts]
  cases negative <;> simp [Binary.addend]

private theorem add_of_cancel {c d : Bool} {m n : Nat} {e f : Int} (m_pos : 0 < m) (n_pos : 0 < n)
    (cancel : signed c (m * 2 ^ e) + signed d (n * 2 ^ f) = 0) :
    UnpackedFloat.add Format.binary64 (.finite (signOf? c) m e m_pos) (.finite (signOf? d) n f n_pos) =
      .zero .positive := by
  have scale : (2 : ℚ) ^ min e f ≠ 0 := by positivity
  have sizes : signed c (m * 2 ^ e) + signed d (n * 2 ^ f) =
      ((signOf? c).apply (m <<< (e - min e f).toNat : Nat) + (signOf? d).apply (n <<< (f - min e f).toNat : Nat) : Int) *
        2 ^ min e f := by
    rw [shiftLeft_mul m (min_le_left e f), shiftLeft_mul n (min_le_right e f), Int.cast_add, apply_signOf?,
      apply_signOf?, signed_scale, signed_scale, add_mul]
  rw [sizes] at cancel
  have nothing_left := Int.cast_eq_zero.1 ((mul_eq_zero.1 cancel).resolve_right scale)
  change UnpackedFloat.normalize Format.binary64
    ((signOf? c).apply (m <<< (e - min e f).toNat) + (signOf? d).apply (n <<< (f - min e f).toNat)) (min e f) .positive = _
  rw [nothing_left]
  rfl

private theorem addend_add_of_cancel {x y : Float} {c d : Bool} {m n : Nat} {e f : Int}
    (x_parts : Binary.ofFloat x = .finite c m e)
    (y_parts : Binary.ofFloat y = .finite d n f) (cancel : signed c (m * 2 ^ e) + signed d (n * 2 ^ f) = 0) :
    addend (x + y) = (addend x).add (addend y) := by
  have x_addend : addend x = (Binary.finite c m e).addend := congrArg Binary.addend x_parts
  have y_addend : addend y = (Binary.finite d n f).addend := congrArg Binary.addend y_parts
  rw [x_addend, y_addend, add_eq_pack, x_parts, y_parts]
  rcases Nat.eq_zero_or_pos m with rfl | m_pos
  · rcases Nat.eq_zero_or_pos n with rfl | n_pos
    · have sum : UnpackedFloat.add Format.binary64 (Binary.finite c 0 e).unpacked (Binary.finite d 0 f).unpacked =
          .zero (signOf? (c && d)) := by cases c <;> cases d <;> rfl
      rw [sum, addend_zero]
      cases c <;> cases d <;> simp [Binary.addend, Addend.add]
    · have size : (0 : ℚ) < n * 2 ^ f := by positivity
      cases d <;> simp [size.ne'] at cancel
  · rcases Nat.eq_zero_or_pos n with rfl | n_pos
    · have size : (0 : ℚ) < m * 2 ^ e := by positivity
      cases c <;> simp [size.ne'] at cancel
    · rw [Binary.unpacked, Binary.unpacked, dif_pos m_pos, dif_pos n_pos, add_of_cancel m_pos n_pos cancel]
      change addend (.ofModel (.pack (.zero (signOf? false)))) = _
      rw [addend_zero]
      simp [Binary.addend, m_pos.ne', n_pos.ne', Addend.add, cancel]

private theorem addend_add_of_value {x y : Float} {a b : ℚ} (x_value : rational? x = some a)
    (y_value : rational? y = some b) (value : rational? (x + y) = some (a + b)) (left_over : a + b ≠ 0) :
    addend (x + y) = (addend x).add (addend y) := by
  have sum : addend (x + y) = .number (a + b) :=
    (addend_of_rational value).resolve_right fun none_left => left_over none_left.2
  rw [sum]
  rcases addend_of_rational x_value with left | ⟨left, x_zero⟩ <;>
    rcases addend_of_rational y_value with right | ⟨right, y_zero⟩ <;>
    rw [left, right]
  · rfl
  · rw [y_zero, add_zero]
    rfl
  · rw [x_zero, zero_add]
    rfl
  · exact absurd (by rw [x_zero, y_zero, add_zero]) left_over

private theorem addend_add_finite {x y : Float} {c d : Bool} {m n : Nat} {e f : Int}
    (x_parts : Binary.ofFloat x = .finite c m e)
    (y_parts : Binary.ofFloat y = .finite d n f) (exact_sum : ExactSum x y) :
    addend (x + y) = (addend x).add (addend y) := by
  by_cases cancel : signed c (m * 2 ^ e) + signed d (n * 2 ^ f) = 0
  · exact addend_add_of_cancel x_parts y_parts cancel
  · have x_value := rational?_eq_some_iff.2 ⟨c, m, e, x_parts, rfl⟩
    have y_value := rational?_eq_some_iff.2 ⟨d, n, f, y_parts, rfl⟩
    exact addend_add_of_value x_value y_value (exact_sum _ _ x_value y_value) cancel

private theorem addend_add_special (p q : Binary) (special : p.value? = none ∨ q.value? = none) :
    addend (.ofModel (.pack (UnpackedFloat.add Format.binary64 p.unpacked q.unpacked))) = p.addend.add q.addend := by
  cases p with
  | undefined =>
    change addend (.ofModel (.pack .notANumber)) = _
    rw [addend_undefined]
    cases q.addend <;> rfl
  | infinite c =>
    cases q with
    | undefined => exact addend_undefined
    | infinite d => cases c <;> cases d <;> rfl
    | finite d n f =>
      have sum : UnpackedFloat.add Format.binary64 (Binary.infinite c).unpacked (Binary.finite d n f).unpacked =
          .infinity (signOf? c) := by
        simp only [Binary.unpacked]
        split <;> rfl
      rw [sum, addend_infinity]
      simp only [Binary.addend]
      split <;> rfl
  | finite c m e =>
    cases q with
    | undefined =>
      have sum : UnpackedFloat.add Format.binary64 (Binary.finite c m e).unpacked Binary.undefined.unpacked =
          .notANumber := by
        simp only [Binary.unpacked]
        split <;> rfl
      rw [sum, addend_undefined]
      simp only [Binary.addend]
      split <;> rfl
    | infinite d =>
      have sum : UnpackedFloat.add Format.binary64 (Binary.finite c m e).unpacked (Binary.infinite d).unpacked =
          .infinity (signOf? d) := by
        simp only [Binary.unpacked]
        split <;> rfl
      rw [sum, addend_infinity]
      simp only [Binary.addend]
      split <;> rfl
    | finite => exact absurd special (by simp [Binary.value?])

theorem addend_add {x y : Float} (exact_sum : ExactSum x y) : addend (x + y) = (addend x).add (addend y) := by
  have apart (special : (Binary.ofFloat x).value? = none ∨ (Binary.ofFloat y).value? = none) :
      addend (x + y) = (addend x).add (addend y) := by
    rw [add_eq_pack]
    exact addend_add_special _ _ special
  cases x_parts : Binary.ofFloat x with
  | undefined | infinite => exact apart (.inl (by rw [x_parts]; rfl))
  | finite =>
    cases y_parts : Binary.ofFloat y with
    | undefined | infinite => exact apart (.inr (by rw [y_parts]; rfl))
    | finite => exact addend_add_finite x_parts y_parts exact_sum

end Screener.Decimal
