import Screener.Proofs.Decimal.NonFinite
import Screener.Proofs.Indicator.Validity

/-! Values that are not finite. A point that is computed from one gives no reading, with an exception: an infinity that
comes first or last in the values of the strength index is a gain or a loss beyond measure and may give 0 or 100. -/
namespace Screener.Indicator
open Arithmetic
open Decimal (Absorbing absorbing_nonFinite absorbing_gap)

/-- Whether the point at position `i` is computed from the value at position `j`. -/
def DependsOn (which : Indicator) (i j : Nat) : Prop :=
  match which with
  | .sma n | .wma n | .stddev n | .bollinger n _ => j ≤ i ∧ i < j + n
  | .roc n => j = i ∨ j + n = i
  | .ema _ | .rsi _ | .macd _ _ _ => j ≤ i

private theorem mem_drop_take {β : Type} {xs : List β} {i j start : Nat} {x : β} (there : xs[j]? = some x)
    (first : start ≤ j) (last : j ≤ i) : x ∈ (xs.take (i + 1)).drop start := by
  rw [List.mem_iff_getElem?]
  refine ⟨j - start, ?_⟩
  rw [List.getElem?_drop, Nat.add_sub_cancel' first, List.getElem?_take_of_lt (Nat.lt_succ_of_le last), there]

private theorem reading?_eq_none {series : Series Float} {i : Nat} {field : Field}
    (silent : ∀ point, series[i]? = some point → point.valid = true →
      ∀ x ∈ point.output.get? field, x.isFinite = false) : series.reading? i field = none := by
  unfold Series.reading?
  cases here : series[i]? with
  | none => rfl
  | some point =>
    simp only
    split
    · rename_i valid
      rw [Option.filter_eq_none_iff]
      intro x given finite
      have special : x.isFinite = false := silent point here valid x given
      have finite : x.isFinite = true := finite
      rw [special] at finite
      cases finite
    · rfl

private theorem foldl_of_found {β γ : Type} {P : β → Prop} {Q : γ → Prop} {f : β → γ → β}
    (keeps : ∀ b c, P b → P (f b c))
    (brings : ∀ b c, Q c → P (f b c)) {xs : List γ} {b : β} (found : P b ∨ ∃ c ∈ xs, Q c) : P (xs.foldl f b) := by
  induction xs generalizing b with
  | nil =>
    refine found.resolve_right ?_
    rintro ⟨c, member, -⟩
    cases member
  | cons c rest ih =>
    refine ih ?_
    rcases found with start | ⟨d, member, special⟩
    · exact .inl (keeps b c start)
    · rcases List.mem_cons.1 member with rfl | later
      · exact .inl (brings b d special)
      · exact .inr ⟨d, later, special⟩

section
variable {S : Float → Prop} {x : Float} {xs : List Float}

private theorem sum_special (absorbing : Absorbing S) (member : x ∈ xs) (special : S x) : S (sum xs) :=
  foldl_of_found (P := S) (Q := S) (fun _ _ total => absorbing.add (.inl total))
    (fun _ _ term => absorbing.add (.inr term)) (.inr ⟨x, member, special⟩)

private theorem emaOf_special (absorbing : Absorbing S) (period : Nat) (member : x ∈ xs) (special : S x) :
    S (emaOf period xs) := by
  refine foldl_of_found (P := S) (Q := S) (fun mean price kept => absorbing.add (.inl kept))
    (fun mean price brought => absorbing.add (.inr (absorbing.mul (.inr (absorbing.sub (.inl brought)))))) ?_
  rw [← List.take_append_drop period xs] at member
  rcases List.mem_append.1 member with early | late
  · exact .inl (absorbing.div (sum_special absorbing early special))
  · exact .inr ⟨x, late, special⟩

private theorem wilderOf_special (absorbing : Absorbing S) (period : Nat) (member : x ∈ xs) (special : S x) :
    S (wilderOf period xs) := by
  refine foldl_of_found (P := S) (Q := S)
    (fun average x kept => absorbing.div (absorbing.add (.inl (absorbing.mul (.inl kept)))))
    (fun average x brought => absorbing.div (absorbing.add (.inr brought))) ?_
  rw [← List.take_append_drop period xs] at member
  rcases List.mem_append.1 member with early | late
  · refine .inl (absorbing.div ?_)
    exact foldl_of_found (P := S) (Q := S) (fun _ _ total => absorbing.add (.inl total))
      (fun _ _ term => absorbing.add (.inr term)) (.inr ⟨x, early, special⟩)
  · exact .inr ⟨x, late, special⟩

end

section
variable {window : List Float} {x : Float}

private theorem mean_special (member : x ∈ window) (special : x.isFinite = false) : (mean window).isFinite = false :=
  absorbing_nonFinite.div (sum_special absorbing_nonFinite member special)

private theorem weightedMean_special (member : x ∈ window) (special : x.isFinite = false) :
    (weightedMean window).isFinite = false := by
  obtain ⟨i, inside, rfl⟩ := List.mem_iff_getElem.1 member
  have weighed : window[i] * ofNat (i + 1) ∈ window.zipIdx.map fun (price, i) => price * ofNat (i + 1) :=
    List.mem_map.2 ⟨(window[i], i), List.mk_mem_zipIdx_iff_getElem?.2 (List.getElem?_eq_getElem inside), rfl⟩
  exact absorbing_nonFinite.div (sum_special absorbing_nonFinite weighed (absorbing_nonFinite.mul (.inl special)))

private theorem deviation_special (member : x ∈ window) (special : x.isFinite = false) :
    (deviation window).isFinite = false := by
  have apart := absorbing_nonFinite.sub (y := mean window) (.inl special)
  have squared : (x - mean window) * (x - mean window) ∈ window.map fun v => (v - mean window) * (v - mean window) :=
    List.mem_map_of_mem member
  exact Decimal.isFinite_sqrt
    (absorbing_nonFinite.div (sum_special absorbing_nonFinite squared (absorbing_nonFinite.mul (.inl apart))))

end

section
variable {change : Float}

private theorem gain_of_gap (gap : change.isNaN = true) : (Move.ofChange change).gain.isNaN = true := by
  have not_less : less change zero = false := by
    rw [Decimal.less_eq, Decimal.gap_iff.1 gap]
    rfl
  have taken : (less zero change || isGap change) = true := Bool.or_eq_true_iff.2 (.inr gap)
  simp only [Move.ofChange, not_less, taken, Bool.false_eq_true, if_false, if_true]
  exact gap

private theorem gain_of_infinity (infinite : change.toModel.unpack = .infinity .positive) :
    (Move.ofChange change).gain.isFinite = false := by
  have not_less : less change zero = false := by
    rw [Decimal.less_eq, infinite, Decimal.unpack_zero]
    rfl
  have more : less zero change = true := by
    rw [Decimal.less_eq, infinite, Decimal.unpack_zero]
    rfl
  simp only [Move.ofChange, not_less, more, Bool.false_eq_true, if_false, Bool.true_or, if_true]
  change change.toModel.unpack.isFinite = false
  rw [infinite]
  rfl

private theorem loss_of_infinity (infinite : change.toModel.unpack = .infinity .negative) :
    (Move.ofChange change).loss.isFinite = false := by
  have is_less : less change zero = true := by
    rw [Decimal.less_eq, infinite, Decimal.unpack_zero]
    rfl
  simp only [Move.ofChange, is_less, if_true]
  change (Float.Model.pack change.toModel.unpack.neg).unpack.isFinite = false
  rw [infinite]
  rfl

end

private theorem strength_of_gap {average : Move Float} (gap : average.gain.isNaN = true ∨ average.loss.isNaN = true) :
    (strength average).isFinite = false := by
  have either : (isGap average.gain || isGap average.loss) = true := Bool.or_eq_true_iff.2 gap
  rw [strength, if_pos either]
  decide

private theorem strength_of_numbers {average : Move Float} (gain : average.gain.isNaN = false)
    (loss : average.loss.isNaN = false) :
    strength average =
      if same average.loss zero then hundred else hundred - hundred / (one + average.gain / average.loss) := by
  have neither : (isGap average.gain || isGap average.loss) = false := Bool.or_eq_false_iff.2 ⟨gain, loss⟩
  rw [strength, if_neg (Bool.eq_false_iff.1 neither)]

private theorem not_same_of_infinity {x : Float} {sign : Float.Model.UnpackedFloat.Sign}
    (infinite : x.toModel.unpack = .infinity sign) : same x zero = false := by
  change (x.toModel.unpack.compare (zero : Float).toModel.unpack == some .eq) = false
  rw [infinite, Decimal.unpack_zero]
  cases sign <;> rfl

private theorem strength_of_both {average : Move Float} (gain : average.gain.isFinite = false)
    (loss : average.loss.isFinite = false) : (strength average).isFinite = false := by
  by_cases gap : average.gain.isNaN = true ∨ average.loss.isNaN = true
  · exact strength_of_gap gap
  · obtain ⟨gain_number, loss_number⟩ := not_or.1 gap
    obtain ⟨sign, infinite⟩ := (Decimal.gap_or_infinity loss).resolve_left loss_number
    have quotient := Decimal.isNaN_div_of_nonFinite gain loss
    have share := Decimal.isNaN_div (x := hundred) (.inr (absorbing_gap.add (x := one) (.inr quotient)))
    rw [strength_of_numbers (Bool.eq_false_iff.2 gain_number) (Bool.eq_false_iff.2 loss_number),
      not_same_of_infinity infinite]
    exact absorbing_nonFinite.sub (.inr (Decimal.isFinite_of_isNaN share))

private theorem strength_of_gain {average : Move Float} (gain : average.gain.isFinite = false) :
    (strength average).isFinite = false ∨ strength average = hundred := by
  by_cases loss : average.loss.isFinite = false
  · exact .inl (strength_of_both gain loss)
  · by_cases gap : average.gain.isNaN = true
    · exact .inl (strength_of_gap (.inl gap))
    · have loss_number : average.loss.isNaN = false :=
        Bool.eq_false_iff.2 fun gap => loss (Decimal.isFinite_of_isNaN gap)
      obtain ⟨sign, infinite⟩ := (Decimal.gap_or_infinity gain).resolve_left gap
      obtain ⟨other, ratio⟩ := Decimal.unpack_infinity_div infinite (Bool.not_eq_false _ ▸ loss)
      have total := Decimal.unpack_add_infinity (x := one) (by decide) ratio
      obtain ⟨last, share⟩ := Decimal.unpack_div_infinity (x := hundred) (by decide) total
      refine .inr ?_
      rw [strength_of_numbers (Bool.eq_false_iff.2 gap) loss_number]
      split
      · rfl
      · change Float.ofModel (.pack (Float.Model.UnpackedFloat.sub .binary64 (hundred : Float).toModel.unpack
          (hundred / (one + average.gain / average.loss)).toModel.unpack)) = hundred
        rw [share, Decimal.unpack_hundred]
        rfl

private theorem strength_of_loss {average : Move Float} (loss : average.loss.isFinite = false) :
    (strength average).isFinite = false ∨ strength average = zero := by
  by_cases gain : average.gain.isFinite = false
  · exact .inl (strength_of_both gain loss)
  · by_cases gap : average.loss.isNaN = true
    · exact .inl (strength_of_gap (.inr gap))
    · have gain_number : average.gain.isNaN = false :=
        Bool.eq_false_iff.2 fun gap => gain (Decimal.isFinite_of_isNaN gap)
      obtain ⟨sign, infinite⟩ := (Decimal.gap_or_infinity loss).resolve_left gap
      obtain ⟨other, ratio⟩ := Decimal.unpack_div_infinity (Bool.not_eq_false _ ▸ gain) infinite
      have total : one + average.gain / average.loss = one := by
        change Float.ofModel (.pack (Float.Model.UnpackedFloat.add .binary64 (one : Float).toModel.unpack
          (average.gain / average.loss).toModel.unpack)) = one
        rw [ratio, Decimal.unpack_one]
        rfl
      refine .inr ?_
      rw [strength_of_numbers gain_number (Bool.eq_false_iff.2 gap), not_same_of_infinity infinite, total]
      decide

section
variable {values : List Float} {i j : Nat} {x : Float}

private theorem mem_moves {a b : Float} {k : Nat} (left : values[k]? = some a) (right : values[k + 1]? = some b)
    (before : k < i) : Move.ofChange (b - a) ∈ (moves values).take i := by
  rw [List.mem_iff_getElem?]
  exact ⟨k, by rw [List.getElem?_take_of_lt before, getElem?_moves, left, right]; rfl⟩

private theorem exists_gap (there : values[j]? = some x) (gap : x.isNaN = true) (last : j ≤ i) (late : 0 < i)
    (inside : i < values.length) : ∃ move ∈ (moves values).take i, move.gain.isNaN = true := by
  cases j with
  | zero =>
    have next : values[0 + 1]? = some values[1] := List.getElem?_eq_getElem _
    exact ⟨_, mem_moves there next late, gain_of_gap (absorbing_gap.sub (.inr gap))⟩
  | succ k =>
    have previous : values[k]? = some values[k] := List.getElem?_eq_getElem _
    exact ⟨_, mem_moves previous there last, gain_of_gap (absorbing_gap.sub (.inl gap))⟩

private theorem exists_infinite_moves (there : values[j]? = some x) {sign : Float.Model.UnpackedFloat.Sign}
    (infinite : x.toModel.unpack = .infinity sign) (first : 0 < j) (last : j < i) (inside : i < values.length) :
    (∃ move ∈ (moves values).take i, move.gain.isNaN = true) ∨
      (∃ move ∈ (moves values).take i, move.gain.isFinite = false) ∧
        ∃ move ∈ (moves values).take i, move.loss.isFinite = false := by
  obtain ⟨k, rfl⟩ : ∃ k, j = k + 1 := ⟨j - 1, by omega⟩
  have previous : values[k]? = some values[k] := List.getElem?_eq_getElem _
  have next : values[k + 1 + 1]? = some values[k + 1 + 1] := List.getElem?_eq_getElem _
  have to_mem := mem_moves previous there (by omega : k < i)
  have from_mem := mem_moves there next last
  rcases Decimal.sub_of_infinity_left infinite values[k] with gap | to_infinite
  · exact .inl ⟨_, to_mem, gain_of_gap gap⟩
  · rcases Decimal.sub_of_infinity_right infinite values[k + 1 + 1] with gap | from_infinite
    · exact .inl ⟨_, from_mem, gain_of_gap gap⟩
    · cases sign with
      | positive => exact .inr ⟨⟨_, to_mem, gain_of_infinity to_infinite⟩, ⟨_, from_mem, loss_of_infinity from_infinite⟩⟩
      | negative => exact .inr ⟨⟨_, from_mem, gain_of_infinity from_infinite⟩, ⟨_, to_mem, loss_of_infinity to_infinite⟩⟩

/-- The change to or from a value that is not finite is a gain or a loss that is not finite. -/
theorem exists_special_move (there : values[j]? = some x) (special : x.isFinite = false) (last : j ≤ i) (late : 0 < i)
    (inside : i < values.length) :
    (∃ move ∈ (moves values).take i, move.gain.isFinite = false) ∨
      ∃ move ∈ (moves values).take i, move.loss.isFinite = false := by
  obtain ⟨change, member, change_special⟩ :
      ∃ change, Move.ofChange change ∈ (moves values).take i ∧ change.isFinite = false := by
    cases j with
    | zero =>
      have next : values[0 + 1]? = some values[1] := List.getElem?_eq_getElem _
      exact ⟨_, mem_moves there next late, absorbing_nonFinite.sub (.inr special)⟩
    | succ k =>
      have previous : values[k]? = some values[k] := List.getElem?_eq_getElem _
      exact ⟨_, mem_moves previous there last, absorbing_nonFinite.sub (.inl special)⟩
  rcases Decimal.gap_or_infinity change_special with gap | ⟨sign, infinite⟩
  · exact .inl ⟨_, member, Decimal.isFinite_of_isNaN (gain_of_gap gap)⟩
  · cases sign with
    | positive => exact .inl ⟨_, member, gain_of_infinity infinite⟩
    | negative => exact .inr ⟨_, member, loss_of_infinity infinite⟩

section
variable {S : Float → Prop} {n : Nat}

private theorem average_gain (absorbing : Absorbing S) (found : ∃ move ∈ (moves values).take i, S move.gain) :
    S (averagesAt n values i).gain := by
  obtain ⟨move, member, special⟩ := found
  exact wilderOf_special absorbing n (List.mem_map_of_mem member) special

private theorem average_loss (absorbing : Absorbing S) (found : ∃ move ∈ (moves values).take i, S move.loss) :
    S (averagesAt n values i).loss := by
  obtain ⟨move, member, special⟩ := found
  exact wilderOf_special absorbing n (List.mem_map_of_mem member) special

end

private theorem strength_special (n : Nat) (there : values[j]? = some x) (special : x.isFinite = false) (last : j ≤ i)
    (late : 0 < i) (inside : i < values.length) :
    (strength (averagesAt n values i)).isFinite = false ∨
      x.isNaN = false ∧ (j = 0 ∨ j = i) ∧
        (strength (averagesAt n values i) = zero ∨ strength (averagesAt n values i) = hundred) := by
  by_cases gap : x.isNaN = true
  · exact .inl (strength_of_gap (.inl (average_gain absorbing_gap (exists_gap there gap last late inside))))
  · by_cases inner : 0 < j ∧ j < i
    · -- Between other values an infinity is met twice, as a gain and as a loss.
      obtain ⟨sign, infinite⟩ := (Decimal.gap_or_infinity special).resolve_left gap
      rcases exists_infinite_moves there infinite inner.1 inner.2 inside with found | ⟨gain, loss⟩
      · exact .inl (strength_of_gap (.inl (average_gain absorbing_gap found)))
      · exact .inl (strength_of_both (average_gain absorbing_nonFinite gain) (average_loss absorbing_nonFinite loss))
    · have number : x.isNaN = false := Bool.eq_false_iff.2 gap
      have ends : j = 0 ∨ j = i := by omega
      rcases exists_special_move there special last late inside with gain | loss
      · exact (strength_of_gain (average_gain absorbing_nonFinite gain)).imp_right fun full => ⟨number, ends, .inr full⟩
      · exact (strength_of_loss (average_loss absorbing_nonFinite loss)).imp_right fun none_left =>
          ⟨number, ends, .inl none_left⟩

private theorem reading?_trailing {n : Nat} {early : Point Float} (idle : early.valid = false)
    {point : List Float → Point Float} {field : Field} (there : values[j]? = some x) (last : j ≤ i) (first : i < j + n)
    (silent : ∀ window, x ∈ window → (point window).valid = true →
      ∀ y ∈ (point window).output.get? field, y.isFinite = false) :
    Series.reading? (trailing n early point values) i field = none := by
  refine reading?_eq_none fun p here valid => ?_
  rw [getElem?_trailing] at here
  obtain ⟨_, -, rfl⟩ := Option.map_eq_some_iff.1 here
  by_cases full : n ≤ i + 1
  · rw [if_neg (by omega), window_eq_lastValues full] at valid ⊢
    exact silent _ (mem_drop_take there (by omega) last) valid
  · rw [if_pos (by omega), idle] at valid
    cases valid

private theorem reading?_finitePoint {n : Nat} {f : List Float → Float} {field : Field} (there : values[j]? = some x)
    (last : j ≤ i) (first : i < j + n) (special : ∀ window, x ∈ window → (f window).isFinite = false) :
    Series.reading? (trailing n unavailable (fun window => finitePoint (f window)) values) i field = none := by
  refine reading?_trailing rfl there last first fun window member valid => ?_
  have finite : (f window).isFinite = true := valid
  rw [special window member] at finite
  cases finite

private theorem reading?_emaSeries {n : Nat} {field : Field} (there : values[j]? = some x)
    (special : x.isFinite = false) (last : j ≤ i) : (emaSeries n values).reading? i field = none := by
  refine reading?_eq_none fun p here valid y given => ?_
  have used : (Indicator.ema n).Proper := proper_of_valid here valid
  rw [emaSeries, if_neg (Nat.pos_iff_ne_zero.1 used)] at here
  have ready := (valid_pointsFrom here).1 valid
  rw [getElem?_pointsFrom, List.getElem?_map, getElem?_emaValues used, if_neg (by omega)] at here
  simp only [Option.map_map] at here
  obtain ⟨_, -, rfl⟩ := Option.map_eq_some_iff.1 here
  cases field with
  | value =>
    obtain rfl := Option.some.inj given
    exact emaOf_special absorbing_nonFinite n (mem_drop_take there (Nat.zero_le j) last) special
  | _ => cases given

private theorem reading?_single {series : Series Float} {y : Float} (here : series[i]? = some ⟨true, .single y⟩)
    (field : Field) : series.reading? i field = none ∨ y.isFinite = true ∧ series.reading? i field = some y := by
  have read : series.reading? i field = ((Output.single y).get? field).filter Arithmetic.isFinite := by
    rw [Series.reading?, here]
    rfl
  rw [read]
  cases field with
  | value =>
    cases finite : y.isFinite with
    | true => exact .inr ⟨rfl, Option.filter_eq_some_iff.2 ⟨rfl, finite⟩⟩
    | false =>
      refine .inl (Option.filter_eq_none_iff.2 fun z given => ?_)
      obtain rfl := Option.some.inj given
      exact Bool.eq_false_iff.1 finite
  | _ => exact .inl rfl

private theorem reading?_rsiSeries (n : Nat) (field : Field) (there : values[j]? = some x)
    (special : x.isFinite = false) (last : j ≤ i) :
    (rsiSeries n values).reading? i field = none ∨
      x.isNaN = false ∧ (j = 0 ∨ j = i) ∧ ((rsiSeries n values).reading? i field = some zero ∨
        (rsiSeries n values).reading? i field = some hundred) := by
  by_cases ready : 0 < n ∧ n ≤ i ∧ i < values.length
  · obtain ⟨used, late, inside⟩ := ready
    have here : (rsiSeries n values)[i]? = some ⟨true, .single (strength (averagesAt n values i))⟩ := by
      rw [getElem?_rsiSeries used, if_neg (Nat.not_lt.2 late), List.getElem?_eq_getElem inside, Option.map_some]
    rcases reading?_single here field with unread | ⟨finite, read⟩
    · exact .inl unread
    · rcases strength_special n there special last (by omega) inside with unread | ⟨number, ends, none_left | full⟩
      · rw [unread] at finite
        cases finite
      · exact .inr ⟨number, ends, .inl (none_left ▸ read)⟩
      · exact .inr ⟨number, ends, .inr (full ▸ read)⟩
  · refine .inl (reading?_eq_none fun point here valid => absurd ?_ ready)
    have used : (Indicator.rsi n).Proper := proper_of_valid here valid
    have inside := (List.getElem?_eq_some_iff.1 here).1
    rw [length_rsiSeries] at inside
    exact ⟨used, (valid_rsiSeries used here).1 valid, inside⟩

private theorem reading?_rocSeries {n : Nat} {field : Field} (there : values[j]? = some x)
    (special : x.isFinite = false) (ends : j = i ∨ j + n = i) : (rocSeries n values).reading? i field = none := by
  refine reading?_eq_none fun p here valid => ?_
  have used : (Indicator.roc n).Proper := proper_of_valid here valid
  obtain ⟨late, base, current, at_base, at_i, base_finite, -, change_finite⟩ := (valid_rocSeries used here).1 valid
  rcases ends with rfl | back
  · obtain rfl : current = x := Option.some.inj (at_i.symm.trans there)
    have change_special : ((current / base - one) * hundred).isFinite = false := absorbing_nonFinite.mul (.inl
      (absorbing_nonFinite.sub (.inl (absorbing_nonFinite.div special))))
    cases change_special.symm.trans change_finite
  · obtain rfl : j = i - n := by omega
    obtain rfl : base = x := Option.some.inj (at_base.symm.trans there)
    cases special.symm.trans base_finite

private theorem reading?_macdSeries {fast slow signal : Nat} {field : Field} (counted : i + 1 < Size.most)
    (there : values[j]? = some x) (special : x.isFinite = false) (last : j ≤ i) :
    (macdSeries fast slow signal values).reading? i field = none := by
  refine reading?_eq_none fun p here valid y given => ?_
  obtain ⟨fast_pos, slow_pos, signal_pos⟩ : (Indicator.macd fast slow signal).Proper := proper_of_valid here valid
  rw [macdSeries, if_neg (by omega)] at here
  have ready := (valid_pointsFrom here).1 valid
  -- A start that does not fit a machine word is put too early, at the greatest count, which no position reaches.
  have started : macdStart fast slow + signal ≤ i + 1 := by
    simp only [Size.add, macdStart] at ready ⊢
    omega
  have full : max fast slow ≤ i + 1 := by
    simp only [macdStart] at started
    omega
  have line_there := getElem?_macdLine ⟨fast_pos, slow_pos⟩ full values
  rw [getElem?_pointsFrom, List.getElem?_zipWith, getElem?_macdSignal signal_pos started, line_there] at here
  have known : x ∈ values.take (i + 1) := mem_drop_take there (Nat.zero_le j) last
  have line_special : (emaOf fast (values.take (i + 1)) - emaOf slow (values.take (i + 1))).isFinite = false :=
    absorbing_nonFinite.sub (.inl (emaOf_special absorbing_nonFinite fast known special))
  cases current : values[i]? with
  | none =>
    rw [current] at here
    cases here
  | some _ =>
    rw [current] at here line_there
    obtain rfl := Option.some.inj here
    have signal_special := emaOf_special absorbing_nonFinite signal
      (mem_drop_take line_there (by omega : macdStart fast slow ≤ i) (Nat.le_refl i)) line_special
    cases field with
    | macdLine =>
      obtain rfl := Option.some.inj given
      exact line_special
    | macdSignal =>
      obtain rfl := Option.some.inj given
      exact signal_special
    | macdHistogram =>
      obtain rfl := Option.some.inj given
      exact absorbing_nonFinite.sub (.inl line_special)
    | _ => cases given

end

/-- A value that is not finite leaves no reading at any position whose point is computed from it. The strength index
is the exception: an infinity that comes first, or at the position itself, may outweigh everything else and give 0 or
100. -/
theorem reading?_of_nonFinite (which : Indicator) {values : List Float} {i j : Nat} {x : Float}
    (counted : i + 1 < Size.most) (there : values[j]? = some x) (special : x.isFinite = false)
    (depends : which.DependsOn i j) (field : Field) :
    (which.series values).reading? i field = none ∨
      (∃ n, which = .rsi n) ∧ x.isNaN = false ∧ (j = 0 ∨ j = i) ∧
        ((which.series values).reading? i field = some zero ∨
          (which.series values).reading? i field = some hundred) := by
  cases which with
  | sma n =>
    obtain ⟨last, first⟩ : j ≤ i ∧ i < j + n := depends
    rw [series, smaSeries, if_neg (by omega)]
    refine .inl (reading?_trailing rfl there last first fun window member _ y given => ?_)
    cases field with
    | value =>
      obtain rfl := Option.some.inj given
      exact absorbing_nonFinite.div (sum_special absorbing_nonFinite member special)
    | _ => cases given
  | wma n =>
    exact .inl (reading?_finitePoint there depends.1 depends.2 fun window member => weightedMean_special member special)
  | stddev n =>
    exact .inl (reading?_finitePoint there depends.1 depends.2 fun window member => deviation_special member special)
  | bollinger n hundredths =>
    refine .inl (reading?_trailing rfl there depends.1 depends.2 fun window member valid => ?_)
    have finite : (mean window).isFinite = true := (Bool.and_eq_true_iff.1 valid).1
    rw [mean_special member special] at finite
    cases finite
  | ema n => exact .inl (reading?_emaSeries there special depends)
  | rsi n => exact (reading?_rsiSeries n field there special depends).imp_right fun rest => ⟨⟨n, rfl⟩, rest⟩
  | roc n => exact .inl (reading?_rocSeries there special depends)
  | macd fast slow signal => exact .inl (reading?_macdSeries counted there special depends)

theorem reading?_of_nonFinite_sample :
    let values := [1.0, 2.0, 1.0 / 0.0, 4.0, 5.0]
    4 + 1 < Size.most ∧ values[2]? = some (1.0 / 0.0) ∧ (1.0 / 0.0 : Float).isFinite = false ∧
      (Indicator.macd 1 2 2).DependsOn 4 2 ∧
      ((Indicator.macd 1 2 2).series values).reading? 4 .macdHistogram = none := by
  have counted : 4 + 1 < Size.most := by decide
  have infinite : (1.0 / 0.0 : Float).isFinite = false := by decide
  have depends : (Indicator.macd 1 2 2).DependsOn 4 2 := (by decide : 2 ≤ 4)
  refine ⟨counted, rfl, infinite, depends, ?_⟩
  refine (reading?_of_nonFinite (.macd 1 2 2) counted rfl infinite depends .macdHistogram).resolve_right ?_
  rintro ⟨⟨n, same⟩, -⟩
  cases same

/-- An infinity at the position itself is a gain beyond measure, and the strength index reads 100. -/
theorem exists_reading_of_nonFinite :
    ¬∀ (which : Indicator) (values : List Float) (i j : Nat) (x : Float) (field : Field), which.Proper →
      values[j]? = some x → x.isFinite = false → which.DependsOn i j →
      (which.series values).reading? i field = none := by
  intro silent
  have unread := silent (.rsi 1) [1.0, 1.0 / 0.0] 1 1 (1.0 / 0.0) .value Nat.one_pos rfl (by decide) (Nat.le_refl 1)
  have full : ((Indicator.rsi 1).series [1.0, 1.0 / 0.0]).reading? 1 .value = some (100.0 : Float) := by decide
  rw [full] at unread
  cases unread

end Screener.Indicator
