import Screener.Proofs.Filter.Location
import Screener.Proofs.Json.Normal

/-! What is reported about a filter document, check by check: a rejected document has faults to show, each where its
path leads, and no two in one place. -/
namespace Screener.Filter
open Json (Value Fields Pointer)

namespace Document

private theorem plain_text (value : Value) : Plain (text value) := by
  cases value with
  | text s => exact .ok s
  | _ => exact .fail (by rintro ⟨⟩)

theorem plain_word {α : Type} (expected : String) (ofName? : String → Option α) (value : Value) :
    Plain (word expected ofName? value) :=
  (plain_text value).andThen fun s => .ofOption (by rintro ⟨⟩) (ofName? s)

private theorem plain_columnName (value : Value) : Plain (columnName value) := by
  refine (plain_text value).andThen fun s => ?_
  dsimp only
  split
  · exact .fail (by rintro ⟨⟩)
  · exact .ok _

private theorem plain_offset (value : Value) : Plain (offset value) := by
  unfold offset
  split
  · split
    · exact .fail (by rintro ⟨⟩)
    · split
      · exact .ok _
      · exact .fail (by rintro ⟨⟩)
  · exact .fail (by rintro ⟨⟩)

private theorem plain_period (value : Value) : Plain (period value) := by
  unfold period
  split
  · exact .fail (by rintro ⟨⟩)
  · exact .fail (by rintro ⟨⟩)
  · split
    · exact .ok _
    · exact .fail (by rintro ⟨⟩)

private theorem plain_hundredths (value : Value) : Plain (hundredths value) := by
  unfold hundredths
  dsimp only
  split
  · exact .fail (by rintro ⟨⟩)
  · split
    · exact .fail (by rintro ⟨⟩)
    · exact .ok _

private theorem plain_constant (value : Value) : Plain (constant value) := by
  unfold constant
  split
  · split
    · exact .ok _
    · exact .fail (by rintro ⟨⟩)
  · exact .fail (by rintro ⟨⟩)

private theorem within_place (fields : Fields) : Within (.object fields) ["timeframe", "offset"] (place fields) := by
  have timeframe_sound : Within (.object fields) ["timeframe"] (optional fields "timeframe" .standard timeframe) :=
    within_optional fun child => (plain_word _ _ child).sound child
  have offset_sound : Within (.object fields) ["offset"] (optional fields "offset" 0 offset) :=
    within_optional fun child => (plain_offset child).sound child
  exact timeframe_sound.both Place.mk offset_sound (by decide)

private theorem within_item {α : Type} {values : List Value} {value : Value} {i : Nat} (here : values[i]? = some value)
    {c : Checked α} (plain : Plain c) : Within (.array values) [i.repr] (c.under i.repr) :=
  (plain.sound value).under (Value.child?_item here)

private theorem sound_macd (fast slow signal : Value) :
    Sound (.array [fast, slow, signal]) (macd fast slow signal) := by
  have fast_sound : Within (.array [fast, slow, signal]) ["0"] ((period fast).under "0") :=
    within_item (i := 0) rfl (plain_period fast)
  have slow_sound : Within (.array [fast, slow, signal]) ["1"] ((period slow).under "1") :=
    within_item (i := 1) rfl (plain_period slow)
  have signal_sound : Within (.array [fast, slow, signal]) ["2"] ((period signal).under "2") :=
    within_item (i := 2) rfl (plain_period signal)
  have rest := slow_sound.both Prod.mk signal_sound (by decide)
  have periods := fast_sound.both Prod.mk rest (by decide)
  have rest_clean : Clean (Checked.both Prod.mk ((period slow).under "1") ((period signal).under "2")) :=
    ((plain_period slow).clean.under "1").both ((plain_period signal).clean.under "2")
  have clean := ((plain_period fast).clean.under "0").both (f := Prod.mk) rest_clean
  refine periods.toSound.andThen ?_ fun x given => .inl (clean x given)
  rintro ⟨m, n, k⟩ -
  dsimp only
  split
  · exact sound_ok _ _
  · exact (Plain.fail (by rintro ⟨⟩)).sound _

private theorem sound_parameters (name : String) (family : Family) (values : List Value) :
    Sound (.array values) (parameters name family values) := by
  unfold parameters
  split
  · exact sound_ok _ _
  · rename_i n
    have period_sound : Within (.array [n]) ["0"] ((period n).under "0") := within_item (i := 0) rfl (plain_period n)
    exact period_sound.toSound.map _
  · exact (sound_macd _ _ _).map _
  · rename_i n width
    have period_sound : Within (.array [n, width]) ["0"] ((period n).under "0") :=
      within_item (i := 0) rfl (plain_period n)
    have width_sound : Within (.array [n, width]) ["1"] ((hundredths width).under "1") :=
      within_item (i := 1) rfl (plain_hundredths width)
    exact (period_sound.both _ width_sound (by decide)).toSound
  · exact (Plain.fail (by rintro ⟨⟩)).sound _

private theorem within_indicator (fields : Fields) : Within (.object fields) ["name", "params"] (indicator fields) := by
  have name_sound : Within (.object fields) ["name"] (required fields "name" text) :=
    within_required fun child _ => (plain_text child).sound child
  have clean : Clean (required fields "name" text) := clean_required fun child => (plain_text child).clean
  refine (name_sound.mono (by decide)).andThen ?_ fun x given => .inl (clean x given)
  intro name given
  obtain ⟨named, there⟩ := lookup_of_required given
  split
  · refine (within_failAt (by rintro ⟨⟩) ?_).mono (by decide)
    exact .under there (.root named)
  · rename_i family known
    split
    · exact within_ok _ _ _
    · rename_i value held
      have params_sound : Sound value ((array value).andThen (parameters name family)) := by
        cases value with
        | array values => exact sound_parameters name family values
        | _ => exact (Plain.fail (by rintro ⟨⟩)).sound _
      have below : (Value.object fields).child? "params" = some value := held
      exact (params_sound.under below).mono (by decide)

private theorem within_operandOf (fields : Fields) (kind : Kind) :
    ∃ steps, (∀ step ∈ steps, step ∈ kind.keys) ∧ Within (.object fields) steps (operandOf fields kind) := by
  have named (key : String) : Within (.object fields) [key] (required fields key columnName) :=
    within_required fun child _ => (plain_columnName child).sound child
  cases kind with
  | column =>
    have within := (named "name").both Operand.column (within_place fields) (by decide)
    exact ⟨_, by decide, within⟩
  | indicator =>
    have read := (named "column").both Prod.mk (within_place fields) (by decide)
    refine ⟨["name", "params"] ++ (["column"] ++ ["timeframe", "offset"]), by decide, ?_⟩
    exact (within_indicator fields).both _ read (by decide)
  | constant =>
    have given : Within (.object fields) ["value"] (required fields "value" constant) :=
      within_required fun child _ => (plain_constant child).sound child
    exact ⟨_, by decide, given.map Operand.constant⟩

private theorem sound_object {α : Type} {next : Fields → Checked α}
    (further : ∀ fields, Sound (.object fields) (next fields))
    (value : Value) : Sound value ((object value).andThen next) := by
  cases value with
  | object fields => exact further fields
  | _ => exact (Plain.fail (by rintro ⟨⟩)).sound _

private theorem sound_operand (value : Value) : Sound value (operand value) := by
  refine sound_object (fun fields => ?_) value
  have type_sound : Within (.object fields) ["type"]
      (required fields "type" (word "one of column, indicator, constant" Kind.ofName?)) :=
    within_required fun child _ => (plain_word _ _ child).sound child
  have clean : Clean (required fields "type" (word "one of column, indicator, constant" Kind.ofName?)) :=
    clean_required fun child => (plain_word _ _ child).clean
  refine type_sound.toSound.andThen ?_ fun x given => .inl (clean x given)
  intro kind _
  obtain ⟨steps, known, within⟩ := within_operandOf fields kind
  exact within.noting known

private theorem sound_condition (value : Value) : Sound value (condition value) := by
  refine sound_object (fun fields => ?_) value
  have operand_sound (key : String) : Within (.object fields) [key] (required fields key operand) :=
    within_required fun child _ => sound_operand child
  have comparison_sound : Within (.object fields) ["operator"] (required fields "operator" comparison) :=
    within_required fun child _ => (plain_word _ _ child).sound child
  have rest := comparison_sound.both Prod.mk (operand_sound "right") (by decide)
  exact ((operand_sound "left").both _ rest (by decide)).noting (by decide)

private theorem within_items {α : Type} {check : Value → Checked α} (each : ∀ value, Sound value (check value))
    {values rest : List Value} {start : Nat} (here : values.drop start = rest) :
    Within (.array values) ((List.range' start rest.length).map Nat.repr) (.items check start rest) := by
  induction rest generalizing start with
  | nil => exact within_ok _ _ _
  | cons value rest ih =>
    have first : values[start]? = some value := by
      have head : (values.drop start)[0]? = values[start]? := List.getElem?_drop
      rw [here] at head
      exact head.symm
    have further : values.drop (start + 1) = rest := by
      rw [← List.tail_drop, here, List.tail_cons]
    have value_sound := (each value).under (Value.child?_item first)
    refine value_sound.both List.cons (ih further) ?_
    intro step own other
    obtain rfl := List.mem_singleton.1 own
    obtain ⟨i, later, same⟩ := List.mem_map.1 other
    -- Items are told apart by the digits of their numbers.
    have number := Json.repr_injective same
    have above := (List.mem_range'_1.1 later).1
    omega

private theorem sound_conditions (value : Value) : Sound value (conditions value) := by
  cases value with
  | array values =>
    have within := within_items sound_condition (List.drop_zero (l := values))
    change Sound (.array values) (if _ then _ else _)
    split
    · exact within.toSound
    · refine ⟨?_, ?_, ?_, ?_⟩
      · rintro - ⟨⟩
      · intro v member
        rcases List.mem_cons.1 member with rfl | found
        · rintro ⟨⟩
        · exact within.specific v found
      · intro v member
        rcases List.mem_cons.1 member with rfl | found
        · exact .root _
        · exact within.located v found
      · intro distinct
        refine List.nodup_cons.2 ⟨?_, within.apart distinct⟩
        intro member
        obtain ⟨v, found, path⟩ := List.mem_map.1 member
        obtain ⟨_, -, _, below⟩ := within.inside v found
        rw [below] at path
        cases path
  | _ => exact (Plain.fail (by rintro ⟨⟩)).sound _

private theorem length_items {α β : Type} {check : α → Checked β} {start : Nat} {xs : List α} {ys : List β}
    (given : (Checked.items check start xs).value = some ys) : ys.length = xs.length := by
  induction xs generalizing start ys with
  | nil =>
    cases given
    rfl
  | cons x rest ih =>
    simp only [Checked.items, Checked.both] at given
    split at given
    · rename_i made
      cases given
      rw [List.length_cons, List.length_cons, ih made]
    · cases given

private theorem expression_of_conditions {value : Value} {cs : List Condition}
    (given : (conditions value).value = some cs) (logic : Logic) : ∃ e, expression logic cs = .ok e := by
  cases value with
  | array values =>
    change (if _ then _ else _ : Checked (List Condition)).value = _ at given
    split at given
    · rename_i count
      rw [← length_items given] at count
      refine ⟨⟨logic, cs, count⟩, ?_⟩
      rw [expression, Expression.ofConditions?, dif_pos count]
    · cases given
  | _ => cases given

theorem expression_of_both {fields : Fields} {logic : Checked Logic} {pair : Logic × List Condition}
    (given : (Checked.both Prod.mk logic (required fields "conditions" conditions)).value = some pair) :
    ∃ e, expression pair.1 pair.2 = .ok e := by
  obtain ⟨_ | l, found⟩ := logic
  · cases given
  · unfold required at given
    split at given
    · rename_i value held
      cases made : (conditions value).value with
      | none =>
        simp [Checked.both, Checked.under, made] at given
      | some cs =>
        simp [Checked.both, Checked.under, made] at given
        rw [← given]
        exact expression_of_conditions made l
    · cases given

private theorem sound_filter (value : Value) : Sound value (filter value) := by
  refine sound_object (fun fields => ?_) value
  have logic_sound : Within (.object fields) ["logic"] (required fields "logic" logic) :=
    within_required fun child _ => (plain_word _ _ child).sound child
  have conditions_sound : Within (.object fields) ["conditions"] (required fields "conditions" conditions) :=
    within_required fun child _ => sound_conditions child
  have both := logic_sound.both Prod.mk conditions_sound (by decide)
  -- What is made of the parts last has no faults of its own: the number of conditions is checked with them.
  refine Within.noting (both.andThen ?_ ?_) (by decide)
  · intro pair given
    obtain ⟨e, made⟩ := expression_of_both given
    change Within _ _ (expression pair.1 pair.2)
    rw [made]
    exact within_ok _ _ e
  · intro pair given
    obtain ⟨e, made⟩ := expression_of_both given
    change _ ∨ (expression pair.1 pair.2).found = []
    rw [made]
    exact .inr rfl

end Document

/-- What a document is rejected for is what its check found. -/
theorem Document.found_of_rejected {value : Value} {vs : List Violation} (rejected : Expression.ofJson value = .error vs) :
    (filter value).found = vs ∧ vs ≠ [] := by
  have blamed := (sound_filter value).blamed
  rw [Expression.ofJson] at rejected
  generalize filter value = c at blamed rejected
  obtain ⟨_ | e, _ | ⟨v, rest⟩⟩ := c
  · exact absurd rfl (blamed rfl)
  · cases rejected
    exact ⟨rfl, List.cons_ne_nil _ _⟩
  · cases rejected
  · cases rejected
    exact ⟨rfl, List.cons_ne_nil _ _⟩

/-- A rejected document has faults to show. None is left without a reason, and each is where its path leads or where a
key is missing. No two are in one place, if no object of the document has a key twice. -/
theorem Expression.located_of_rejected {value : Value} {vs : List Violation}
    (rejected : Expression.ofJson value = .error vs) :
    vs ≠ [] ∧ (∀ v ∈ vs, v.reason ≠ .unspecified) ∧
      (∀ v ∈ vs, ∃ pointer, Pointer.ofText? v.path.text = some pointer ∧ Located value pointer) ∧
      (value.Distinct → (vs.map fun v => v.path.text).Nodup) := by
  obtain ⟨-, specific, located, apart⟩ := Document.sound_filter value
  obtain ⟨rfl, nonempty⟩ := Document.found_of_rejected rejected
  refine ⟨nonempty, specific, ?_, ?_⟩
  · intro v found
    exact ⟨v.path, Pointer.ofText?_text v.path, located v found⟩
  · intro distinct
    have texts : (fun v : Violation => v.path.text) = Pointer.text ∘ Violation.path := rfl
    rw [texts, ← List.map_map]
    exact (apart distinct).map fun _ _ same => Pointer.text_injective same

theorem Expression.located_of_rejected_sample :
    let value : Value := (Value.object [("conditions", .array [.null]), ("lo/gic", .null)]).normal
    let vs : List Violation := [⟨["lo/gic"], .unexpectedKey⟩, ⟨["logic"], .missing⟩,
      ⟨["conditions", "0"], .wrongKind "an object" "null"⟩]
    (∀ v ∈ vs, ∃ pointer, Pointer.ofText? v.path.text = some pointer ∧ Located value pointer) ∧
      (vs.map fun v => v.path.text).Nodup := by
  intro value vs
  have rejected : Expression.ofJson value = .error vs := rfl
  obtain ⟨-, -, located, apart⟩ := Expression.located_of_rejected rejected
  exact ⟨located, apart (Json.distinct_normal _)⟩

end Screener.Filter
