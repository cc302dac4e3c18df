import Mathlib
import Screener.Arithmetic

/-! Infinities and doubles that are no numbers. Arithmetic does not make them finite again: both kinds together absorb
what is added to them, subtracted from them, multiplied with them or divided into them, and so do those that are no
numbers alone. -/
namespace Screener.Decimal
open Float.Model (Format UnpackedFloat)
open Float.Model.UnpackedFloat (Sign)

/-- A result has the property as soon as an operand has it. Of a quotient this is asked of the dividend only. -/
structure Absorbing (S : Float → Prop) : Prop where
  add {x y : Float} : S x ∨ S y → S (x + y)
  sub {x y : Float} : S x ∨ S y → S (x - y)
  mul {x y : Float} : S x ∨ S y → S (x * y)
  div {x y : Float} : S x → S (x / y)

namespace Special
variable {spec : Format} {u v : UnpackedFloat}

private theorem unpack_pack (special : u.isFinite = false) : (Float.Model.pack u).unpack = u := by
  cases u with
  | infinity sign => cases sign <;> rfl
  | notANumber => rfl
  | zero | finite => cases special

private theorem unpack_pack_zero (sign : Sign) : (Float.Model.pack (.zero sign)).unpack = .zero sign := by
  cases sign <;> rfl

private theorem isFinite_of_isNaN (gap : u.isNaN = true) : u.isFinite = false := by
  cases u with
  | notANumber => rfl
  | infinity | zero | finite => cases gap

theorem add (special : u.isFinite = false ∨ v.isFinite = false) : (u.add spec v).isFinite = false := by
  cases u with
  | notANumber => rfl
  | infinity s =>
    cases v with
    | infinity t => cases s <;> cases t <;> rfl
    | notANumber | zero | finite => rfl
  | zero | finite =>
    cases v with
    | notANumber | infinity => rfl
    | zero | finite => simp [UnpackedFloat.isFinite] at special

theorem sub (special : u.isFinite = false ∨ v.isFinite = false) : (u.sub spec v).isFinite = false := by
  cases u with
  | notANumber => rfl
  | infinity s =>
    cases v with
    | infinity t => cases s <;> cases t <;> rfl
    | notANumber | zero | finite => rfl
  | zero | finite =>
    cases v with
    | notANumber | infinity => rfl
    | zero | finite => simp [UnpackedFloat.isFinite] at special

theorem mul (special : u.isFinite = false ∨ v.isFinite = false) : (u.mul spec v).isFinite = false := by
  cases u with
  | notANumber => rfl
  | infinity => cases v <;> rfl
  | zero | finite =>
    cases v with
    | notANumber | infinity => rfl
    | zero | finite => simp [UnpackedFloat.isFinite] at special

theorem div (special : u.isFinite = false) : (u.div spec v).isFinite = false := by
  cases u with
  | notANumber => rfl
  | infinity => cases v <;> rfl
  | zero | finite => cases special

theorem sqrt (special : u.isFinite = false) : (u.sqrt spec).isFinite = false := by
  cases u with
  | notANumber => rfl
  | infinity sign => cases sign <;> rfl
  | zero | finite => cases special

theorem undefined (op : UnpackedFloat → UnpackedFloat → UnpackedFloat)
    (left : ∀ v, op .notANumber v = .notANumber)
    (right : ∀ u, op u .notANumber = .notANumber) (either : u.isNaN = true ∨ v.isNaN = true) :
    (op u v).isNaN = true := by
  cases u with
  | notANumber =>
    rw [left]
    rfl
  | infinity | zero | finite =>
    cases v with
    | notANumber =>
      rw [right]
      rfl
    | infinity | zero | finite => simp [UnpackedFloat.isNaN] at either

end Special

private theorem isFinite_pack {u : UnpackedFloat} (special : u.isFinite = false) :
    (Float.ofModel (.pack u)).isFinite = false := by
  change (Float.Model.pack u).unpack.isFinite = false
  rw [Special.unpack_pack special, special]

private theorem isNaN_pack {u : UnpackedFloat} (gap : u.isNaN = true) : (Float.ofModel (.pack u)).isNaN = true := by
  change (Float.Model.pack u).unpack.isNaN = true
  rw [Special.unpack_pack (Special.isFinite_of_isNaN gap), gap]

theorem absorbing_nonFinite : Absorbing fun x => x.isFinite = false where
  add special := isFinite_pack (Special.add special)
  sub special := isFinite_pack (Special.sub special)
  mul special := isFinite_pack (Special.mul special)
  div special := isFinite_pack (Special.div special)

theorem isNaN_div {x y : Float} (either : x.isNaN = true ∨ y.isNaN = true) : (x / y).isNaN = true :=
  isNaN_pack (Special.undefined (UnpackedFloat.div Format.binary64) (fun _ => rfl)
    (fun u => by cases u <;> rfl) either)

theorem absorbing_gap : Absorbing fun x => x.isNaN = true where
  add either := isNaN_pack (Special.undefined (UnpackedFloat.add Format.binary64) (fun _ => rfl)
    (fun u => by cases u <;> rfl) either)
  sub either := isNaN_pack (Special.undefined (UnpackedFloat.sub Format.binary64) (fun _ => rfl)
    (fun u => by cases u <;> rfl) either)
  mul either := isNaN_pack (Special.undefined (UnpackedFloat.mul Format.binary64) (fun _ => rfl)
    (fun u => by cases u <;> rfl) either)
  div dividend := isNaN_div (.inl dividend)

theorem isFinite_sqrt {x : Float} (special : x.isFinite = false) : x.sqrt.isFinite = false :=
  isFinite_pack (Special.sqrt special)

theorem isFinite_of_isNaN {x : Float} (gap : x.isNaN = true) : x.isFinite = false :=
  Special.isFinite_of_isNaN (u := x.toModel.unpack) gap

theorem isNaN_div_of_nonFinite {x y : Float} (left : x.isFinite = false) (right : y.isFinite = false) :
    (x / y).isNaN = true := by
  change x.toModel.unpack.isFinite = false at left
  change y.toModel.unpack.isFinite = false at right
  refine isNaN_pack (u := x.toModel.unpack.div Format.binary64 y.toModel.unpack) ?_
  generalize x.toModel.unpack = u at left
  generalize y.toModel.unpack = v at right
  cases u with
  | notANumber => rfl
  | infinity => cases v with
    | notANumber | infinity => rfl
    | zero | finite => cases right
  | zero | finite => cases left

theorem gap_iff {x : Float} : x.isNaN = true ↔ x.toModel.unpack = .notANumber := by
  change x.toModel.unpack.isNaN = true ↔ _
  generalize x.toModel.unpack = u
  cases u with
  | notANumber => exact iff_of_true rfl rfl
  | infinity | zero | finite => exact iff_of_false (fun gap => by cases gap) fun gap => by cases gap

theorem gap_or_infinity {x : Float} (special : x.isFinite = false) :
    x.isNaN = true ∨ ∃ sign, x.toModel.unpack = .infinity sign := by
  change x.toModel.unpack.isFinite = false at special
  change x.toModel.unpack.isNaN = true ∨ _
  generalize x.toModel.unpack = u at special
  cases u with
  | notANumber => exact .inl rfl
  | infinity sign => exact .inr ⟨sign, rfl⟩
  | zero | finite => cases special

theorem sub_of_infinity_left {x : Float} {sign : Sign} (infinite : x.toModel.unpack = .infinity sign) (y : Float) :
    (x - y).isNaN = true ∨ (x - y).toModel.unpack = .infinity sign := by
  change (Float.ofModel (.pack (x.toModel.unpack.sub Format.binary64 y.toModel.unpack))).isNaN = true ∨
    (Float.Model.pack (x.toModel.unpack.sub Format.binary64 y.toModel.unpack)).unpack = _
  rw [infinite]
  cases y.toModel.unpack with
  | notANumber => exact .inl (isNaN_pack rfl)
  | zero | finite => exact .inr (Special.unpack_pack rfl)
  | infinity other =>
    cases sign <;> cases other
    · exact .inl rfl
    · exact .inr rfl
    · exact .inr rfl
    · exact .inl rfl

theorem sub_of_infinity_right {y : Float} {sign : Sign} (infinite : y.toModel.unpack = .infinity sign) (x : Float) :
    (x - y).isNaN = true ∨ (x - y).toModel.unpack = .infinity (-sign) := by
  change (Float.ofModel (.pack (x.toModel.unpack.sub Format.binary64 y.toModel.unpack))).isNaN = true ∨
    (Float.Model.pack (x.toModel.unpack.sub Format.binary64 y.toModel.unpack)).unpack = _
  rw [infinite]
  cases x.toModel.unpack with
  | notANumber => exact .inl (isNaN_pack rfl)
  | zero | finite => exact .inr (Special.unpack_pack rfl)
  | infinity other =>
    cases sign <;> cases other
    · exact .inl rfl
    · exact .inr rfl
    · exact .inr rfl
    · exact .inl rfl

theorem unpack_add_infinity {x y : Float} {sign : Sign} (finite : x.isFinite = true)
    (infinite : y.toModel.unpack = .infinity sign) : (x + y).toModel.unpack = .infinity sign := by
  change x.toModel.unpack.isFinite = true at finite
  change (Float.Model.pack (x.toModel.unpack.add Format.binary64 y.toModel.unpack)).unpack = _
  generalize x.toModel.unpack = u at finite
  rw [infinite]
  cases u with
  | zero | finite => exact Special.unpack_pack rfl
  | infinity | notANumber => cases finite

theorem unpack_infinity_div {x y : Float} {sign : Sign} (infinite : x.toModel.unpack = .infinity sign)
    (finite : y.isFinite = true) : ∃ other, (x / y).toModel.unpack = .infinity other := by
  change y.toModel.unpack.isFinite = true at finite
  change ∃ other, (Float.Model.pack (x.toModel.unpack.div Format.binary64 y.toModel.unpack)).unpack = _
  generalize y.toModel.unpack = v at finite
  rw [infinite]
  cases v with
  | zero | finite => exact ⟨_, Special.unpack_pack rfl⟩
  | infinity | notANumber => cases finite

theorem unpack_div_infinity {x y : Float} {sign : Sign} (finite : x.isFinite = true)
    (infinite : y.toModel.unpack = .infinity sign) : ∃ other, (x / y).toModel.unpack = .zero other := by
  change x.toModel.unpack.isFinite = true at finite
  change ∃ other, (Float.Model.pack (x.toModel.unpack.div Format.binary64 y.toModel.unpack)).unpack = _
  generalize x.toModel.unpack = u at finite
  rw [infinite]
  cases u with
  | zero other | finite other => exact ⟨other / sign, Special.unpack_pack_zero _⟩
  | infinity | notANumber => cases finite

theorem less_eq (x y : Float) :
    Arithmetic.less x y = (x.toModel.unpack.compare y.toModel.unpack == some .lt) := by
  have below : x < y ↔ (x.toModel.unpack.compare y.toModel.unpack == some .lt) = true := by
    change decide _ = true ↔ _
    exact decide_eq_true_iff
  change decide (x < y) = _
  rw [Bool.eq_iff_iff, decide_eq_true_iff, below]

theorem unpack_zero : (Arithmetic.zero : Float).toModel.unpack = .zero .positive := rfl

theorem unpack_one : (Arithmetic.one : Float).toModel.unpack = .finite .positive (2 ^ 52) (-52) (by decide) := by rfl

theorem unpack_hundred :
    (Arithmetic.hundred : Float).toModel.unpack = .finite .positive (100 * 2 ^ 46) (-46) (by decide) := by rfl

end Screener.Decimal
