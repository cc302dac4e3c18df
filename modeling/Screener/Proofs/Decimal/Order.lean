import Mathlib
import Screener.Arithmetic
import Screener.Proofs.Decimal.Exact
import Screener.Proofs.Decimal.NonFinite

/-! The order of doubles, with an infinity at either end. All but those that are no number can be compared, so the greater
of several doubles is the same in whatever order they are gone through, and so is the lesser. -/
namespace Screener.Decimal

def Binary.level : Binary → WithBot (WithTop ℚ)
  | .finite negative significand exponent => ((signed negative (significand * 2 ^ exponent) : ℚ) : WithTop ℚ)
  | .infinite true => ⊥
  | .infinite false => (⊤ : WithTop ℚ)
  | .undefined => ⊥

theorem isNaN_iff_undefined (x : Float) : x.isNaN = true ↔ Binary.ofFloat x = .undefined := by
  rw [gap_iff, unpack_eq]
  cases Binary.ofFloat x with
  | finite negative significand exponent =>
    simp only [Binary.unpacked]
    split <;> simp
  | infinite | undefined => simp [Binary.unpacked]

theorem le_iff_compare (x y : Float) :
    x ≤ y ↔ (x.toModel.unpack.compare y.toModel.unpack).any (·.isLE) = true := by
  change decide (_ = true) = true ↔ _
  exact decide_eq_true_iff

theorem le_iff_level {x y : Float} (left : x.isNaN = false) (right : y.isNaN = false) :
    x ≤ y ↔ (Binary.ofFloat x).level ≤ (Binary.ofFloat y).level := by
  have left := mt (isNaN_iff_undefined x).2 (Bool.eq_false_iff.1 left)
  have right := mt (isNaN_iff_undefined y).2 (Bool.eq_false_iff.1 right)
  cases x_parts : Binary.ofFloat x with
  | undefined => exact absurd x_parts left
  | finite c m e =>
    have x_value := rational?_eq_some_iff.2 ⟨c, m, e, x_parts, rfl⟩
    cases y_parts : Binary.ofFloat y with
    | undefined => exact absurd y_parts right
    | finite d n f =>
      have y_value := rational?_eq_some_iff.2 ⟨d, n, f, y_parts, rfl⟩
      rw [le_iff_rational x_value y_value]
      simp only [Binary.level, WithBot.coe_le_coe, WithTop.coe_le_coe]
    | infinite d =>
      rw [le_iff_compare, unpack_eq, unpack_eq, x_parts, y_parts, Binary.unpacked, Binary.unpacked]
      split <;> cases d <;> simp [signOf?, Float.Model.UnpackedFloat.compare, Binary.level]
  | infinite c =>
    rw [le_iff_compare, unpack_eq, unpack_eq, x_parts]
    cases y_parts : Binary.ofFloat y with
    | undefined => exact absurd y_parts right
    | finite d n f =>
      simp only [Binary.unpacked]
      split <;> cases c <;> simp [signOf?, Float.Model.UnpackedFloat.compare, Binary.level]
    | infinite d =>
      cases c <;> cases d
      · exact iff_of_true rfl le_rfl
      · exact iff_of_false (by decide) (by simp [Binary.level])
      · exact iff_of_true rfl bot_le
      · exact iff_of_true rfl le_rfl

private theorem numbers_of_le {x y : Float} (le : x ≤ y) : x.isNaN = false ∧ y.isNaN = false := by
  rw [le_iff_compare] at le
  refine ⟨Bool.eq_false_iff.2 fun gap => ?_, Bool.eq_false_iff.2 fun gap => ?_⟩
  · rw [gap_iff.1 gap] at le
    cases le
  · rw [gap_iff.1 gap] at le
    generalize x.toModel.unpack = u at le
    cases u <;> cases le

private theorem le_trans_float {x y z : Float} (first : x ≤ y) (second : y ≤ z) : x ≤ z := by
  obtain ⟨x_number, y_number⟩ := numbers_of_le first
  obtain ⟨-, z_number⟩ := numbers_of_le second
  rw [le_iff_level x_number y_number] at first
  rw [le_iff_level y_number z_number] at second
  exact (le_iff_level x_number z_number).2 (first.trans second)

private theorem le_or_le {x y : Float} (left : x.isNaN = false) (right : y.isNaN = false) : x ≤ y ∨ y ≤ x := by
  rw [le_iff_level left right, le_iff_level right left]
  exact le_total _ _

def prefer (yields : Float → Float → Bool) (a b : Float) : Float := if yields a b then b else a

private theorem prefer_assoc {yields : Float → Float → Bool} (total : ∀ a b, yields a b ∨ yields b a)
    (trans : ∀ {a b c}, yields a b → yields b c → yields a c) (a b c : Float) :
    prefer yields (prefer yields a b) c = prefer yields a (prefer yields b c) := by
  unfold prefer
  by_cases ab : yields a b
  · by_cases bc : yields b c
    · simp [ab, bc, trans ab bc]
    · simp [ab, bc]
  · by_cases bc : yields b c
    · simp [ab, bc]
    · have ac : ¬yields a c := fun ac => ab (trans ac ((total b c).resolve_left bc))
      simp [ab, bc, ac]

def yields (ranks : Float → Float → Bool) (a b : Float) : Bool := a.isNaN || ranks a b

private theorem prefer_yields_assoc (ranks : Float → Float → Bool)
    (numbers : ∀ {a b}, ranks a b → a.isNaN = false ∧ b.isNaN = false)
    (total : ∀ {a b}, a.isNaN = false → b.isNaN = false → ranks a b ∨ ranks b a)
    (trans : ∀ {a b c}, ranks a b → ranks b c → ranks a c) (a b c : Float) :
    prefer (yields ranks) (prefer (yields ranks) a b) c = prefer (yields ranks) a (prefer (yields ranks) b c) := by
  refine prefer_assoc (fun a b => ?_) (fun {a b c} ab bc => ?_) a b c
  · simp only [yields, Bool.or_eq_true]
    cases left : a.isNaN with
    | true => exact .inl (.inl rfl)
    | false =>
      cases right : b.isNaN with
      | true => exact .inr (.inl rfl)
      | false => exact (total left right).imp .inr .inr
  · simp only [yields, Bool.or_eq_true] at *
    rcases ab with gap | ab
    · exact .inl gap
    · rcases bc with gap | bc
      · rw [(numbers ab).2] at gap
        cases gap
      · exact .inr (trans ab bc)

theorem greater_assoc (a b c : Float) : greater (greater a b) c = greater a (greater b c) := by
  refine prefer_yields_assoc (fun a b => a ≤ b) (fun {a b} le => ?_) (fun {a b} left right => ?_)
    (fun {a b c} ab bc => ?_) a b c
  · exact numbers_of_le (of_decide_eq_true le)
  · exact (le_or_le left right).imp decide_eq_true decide_eq_true
  · exact decide_eq_true (le_trans_float (of_decide_eq_true ab) (of_decide_eq_true bc))

theorem lesser_assoc (a b c : Float) : lesser (lesser a b) c = lesser a (lesser b c) := by
  refine prefer_yields_assoc (fun a b => b ≤ a) (fun {a b} le => ?_) (fun {a b} left right => ?_)
    (fun {a b c} ba cb => ?_) a b c
  · exact (numbers_of_le (of_decide_eq_true le)).symm
  · exact (le_or_le right left).imp decide_eq_true decide_eq_true
  · exact decide_eq_true (le_trans_float (of_decide_eq_true cb) (of_decide_eq_true ba))

theorem beq_self {x : Float} (number : x.isNaN = false) : (x == x) = true := by
  change (x.toModel.unpack.compare x.toModel.unpack == some .eq) = true
  change x.toModel.unpack.isNaN = false at number
  cases unpacked : x.toModel.unpack with
  | notANumber =>
    rw [unpacked] at number
    cases number
  | infinity sign => cases sign <;> rfl
  | zero sign => rfl
  | finite sign m e => cases sign <;> simp [Float.Model.UnpackedFloat.compare, Std.ReflCmp.compare_self]

theorem zero_beq {x : Float} (zero : (x == 0.0) = true) : ((0.0 : Float) == x) = true := by
  have unpack_zero : (0.0 : Float).toModel.unpack = .zero .positive := rfl
  change (x.toModel.unpack.compare (0.0 : Float).toModel.unpack == some .eq) = true at zero
  change ((0.0 : Float).toModel.unpack.compare x.toModel.unpack == some .eq) = true
  rw [unpack_zero] at zero ⊢
  cases unpacked : x.toModel.unpack with
  | zero sign => rfl
  | notANumber =>
    rw [unpacked] at zero
    cases zero
  | infinity sign | finite sign m e =>
    rw [unpacked] at zero
    cases sign <;> cases zero

end Screener.Decimal
