import Screener.Proofs.Except
import Screener.Proofs.Filter.RoundTrip
import Screener.Proofs.Json.Integer
import Screener.SavedFilter

/-! Filters under names, written and read again. The name that a text stands for stands for itself, and the text of a
filter reads back as that filter if the doubles in it do. -/
namespace Screener

namespace Json

theorem Value.Legible.normal {room : Nat} {value : Value} (legible : value.Legible room) :
    value.normal.Legible room := by
  induction legible with
  | null => exact .null
  | boolean b => exact .boolean b
  | number reads => exact .number reads
  | text s => exact .text s
  | @array room items _ ih =>
    rw [Value.normal, normalItems_eq_map]
    refine .array fun item inside => ?_
    obtain ⟨original, there, rfl⟩ := List.mem_map.1 inside
    exact ih original there
  | @object room fields _ ih =>
    rw [Value.normal]
    refine .object fun field inside => ?_
    obtain ⟨original, there, same⟩ := mem_normalFields inside
    rw [same]
    exact ih _ there

end Json

namespace Filter
open Json (Value)

def Operand.doubles : Operand → List Float
  | .indicator (.bollinger _ hundredths) _ _ _ => [Indicator.bandWidth hundredths]
  | .constant value => [value]
  | _ => []

/-- Each double in the document of the filter reads back. -/
def Expression.ReadsBack (e : Expression) : Prop :=
  ∀ x ∈ e.operands, ∀ d ∈ x.doubles, (Json.Number.double d).ReadsBack

private theorem readsBack_count {n most : Nat} (range : n ≤ most) (fits : most < Json.wordLimit := by decide) :
    (Json.Number.integer n).ReadsBack :=
  Json.readsBack_integer (Nat.lt_of_le_of_lt range fits)

private theorem legible_placeFields {room : Nat} {place : Place} (most : place.offset ≤ mostOffset) :
    ∀ field ∈ placeFields place, field.2.Legible room :=
  List.forall_mem_cons.2 ⟨.text _, List.forall_mem_singleton.2 (.number (readsBack_count most))⟩

private theorem readsBack_params {which : Indicator} {field : Indicator.Field} {name : String} {place : Place}
    (sound : SoundIndicator which field)
    (reads : ∀ d ∈ (Operand.indicator which field name place).doubles, (Json.Number.double d).ReadsBack) :
    ∀ n ∈ params which, n.ReadsBack := by
  have period {n : Nat} (range : InPeriods n) : (Json.Number.integer n).ReadsBack := readsBack_count range.2
  cases which with
  | macd fast slow signal =>
    obtain ⟨-, fast_range, slow_range, signal_range, -⟩ := sound
    simp only [params, List.forall_mem_cons]
    exact ⟨period fast_range, period slow_range, period signal_range, fun _ none => nomatch none⟩
  | bollinger n hundredths =>
    obtain ⟨-, range, -⟩ := sound
    exact List.forall_mem_cons.2 ⟨period range, List.forall_mem_singleton.2 (reads _ List.mem_cons_self)⟩
  | _ n =>
    cases field with
    | value => exact List.forall_mem_singleton.2 (period sound)
    | _ => cases sound

private theorem legible_operand {room : Nat} {x : Operand} (sound : x.WellFormed)
    (reads : ∀ d ∈ x.doubles, (Json.Number.double d).ReadsBack) : (Value.object x.fields).Legible (room + 2) := by
  refine .object ?_
  cases x with
  | column name place =>
    refine List.forall_mem_append.2 ⟨?_, legible_placeFields sound.2⟩
    exact List.forall_mem_cons.2 ⟨.text _, List.forall_mem_singleton.2 (.text _)⟩
  | indicator which field name place =>
    obtain ⟨fits, -, most⟩ := sound
    have listed : (Value.array ((params which).map .number)).Legible (room + 1) := by
      refine .array (List.forall_mem_map.2 fun n inside => .number ?_)
      exact readsBack_params fits reads n inside
    refine List.forall_mem_append.2 ⟨?_, legible_placeFields most⟩
    simp only [List.forall_mem_cons]
    exact ⟨.text _, .text _, listed, .text _, fun _ none => nomatch none⟩
  | constant value =>
    have finite : value.isFinite = true := sound
    have number : Value.ofFloat value = .number (.double value) := if_pos finite
    refine List.forall_mem_cons.2 ⟨.text _, List.forall_mem_singleton.2 ?_⟩
    rw [number]
    exact .number (reads value List.mem_cons_self)

private theorem legible_toJson {e : Expression} (sound : e.WellFormed) (reads : e.ReadsBack) :
    e.toJson.Legible Json.mostOpen := by
  refine Json.Value.Legible.normal (.object (List.forall_mem_cons.2 ⟨.text _, List.forall_mem_singleton.2 ?_⟩))
  refine .array (List.forall_mem_map.2 fun c inside => .object ?_)
  obtain ⟨left, right⟩ := sound c inside
  have operand {x : Operand} (side : x ∈ c.operands) : ∀ d ∈ x.doubles, (Json.Number.double d).ReadsBack :=
    reads x (List.mem_flatMap.2 ⟨c, inside, side⟩)
  simp only [Condition.fields, List.forall_mem_cons]
  exact ⟨legible_operand left (operand List.mem_cons_self), .text _,
    legible_operand right (operand (List.mem_cons_of_mem _ List.mem_cons_self)), fun _ none => nomatch none⟩

namespace Expression
variable {e : Expression}

theorem read_text (sound : e.WellFormed) (reads : e.ReadsBack) : Json.read e.text = some e.toJson :=
  Json.read_compact (legible_toJson sound reads)

theorem ofJson_normal (sound : e.WellFormed) : Expression.ofJson e.toJson.normal = .ok e := by
  rw [toJson, Json.normal_normal]
  exact (Checked.toExcept_eq_ok_iff.trans Document.filter_passes).2 (filter_reads sound)

/-- A filter is read back from its text. -/
theorem ofText_text (sound : e.WellFormed) (reads : e.ReadsBack) : Expression.ofText e.text = .ok e := by
  simp only [ofText, read_text sound reads, ofJson_normal sound]

end Expression

end Filter

namespace SavedFilter
open Screener.Filter (Expression)

/-- Of a stored text only the name can be refused. -/
theorem ofText_text {e : Expression} (sound : e.WellFormed) (reads : e.ReadsBack) (name : String) :
    ofText name e.text = ofExpression name e := by
  simp only [ofText, Expression.read_text sound reads, Expression.ofJson_normal sound]

structure IsName (name : String) : Prop where
  named : name ≠ ""
  short : name.utf8ByteSize ≤ mostBytes
  plain : ∀ c ∈ name.toList, isNameChar c

/-- The name that a text stands for is what is left of it without the blanks around it. -/
theorem nameOf_eq_ok_iff {text name : String} : nameOf text = .ok name ↔ name = Text.trim text ∧ IsName name := by
  simp only [nameOf]
  split
  · rename_i length
    refine iff_of_false (fun failed => nomatch failed) ?_
    rintro ⟨rfl, named, short, -⟩
    rcases Bool.or_eq_true_iff.1 length with empty | long
    · exact named (String.isEmpty_iff.1 empty)
    · exact Nat.not_lt.2 short (of_decide_eq_true long)
  · rename_i length
    obtain ⟨named, short⟩ := not_or.1 (mt Bool.or_eq_true_iff.2 length)
    split
    · rename_i bad found
      refine iff_of_false (fun failed => nomatch failed) ?_
      rintro ⟨rfl, -, -, plain⟩
      have other := List.find?_some found
      rw [plain bad (List.mem_of_find?_eq_some found)] at other
      cases other
    · rename_i none_bad
      have plain : ∀ c ∈ (Text.trim text).toList, isNameChar c := by simpa using none_bad
      refine (Except.ok.injEq _ _).to_iff.trans ⟨?_, fun same => same.1.symm⟩
      rintro rfl
      exact ⟨rfl, mt String.isEmpty_iff.2 named, Nat.le_of_not_lt (mt decide_eq_true short), plain⟩

theorem nameOf_name {text name : String} (accepted : nameOf text = .ok name) : nameOf name = .ok name := by
  obtain ⟨rfl, sound⟩ := nameOf_eq_ok_iff.1 accepted
  exact nameOf_eq_ok_iff.2 ⟨(Text.trim_trim text).symm, sound⟩

theorem ofExpression_eq_ok_iff {text : String} {e : Expression} {saved : SavedFilter} :
    ofExpression text e = .ok saved ↔ nameOf text = .ok saved.name ∧ e = saved.filter := by
  obtain ⟨name, filter⟩ := saved
  rw [ofExpression, map_eq_ok_iff]
  constructor
  · rintro ⟨_, accepted, same⟩
    cases same
    exact ⟨accepted, rfl⟩
  · rintro ⟨accepted, rfl⟩
    exact ⟨name, accepted, rfl⟩

end SavedFilter
end Screener
