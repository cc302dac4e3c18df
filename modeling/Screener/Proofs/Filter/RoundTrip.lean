import Screener.Filter.Canonical
import Screener.Proofs.Filter.Grammar
import Screener.Proofs.Json.Normal
import Screener.Proofs.Text.Trim

/-! Filters written as documents and read again. The filters that documents stand for are the well-formed ones, and
each of them is what its own document stands for. -/
namespace Screener.Filter
open Json (Value Fields)
open Grammar

/-- A column name without blanks around it and without capital letters. -/
structure IsName (s : String) : Prop where
  named : s ≠ ""
  trimmed : Text.trim s = s
  lower : Text.lowerAscii s = s

def InPeriods (n : Nat) : Prop := 1 ≤ n ∧ n ≤ mostPeriod

/-- The parameters are in their ranges, and the indicator has the field. -/
def SoundIndicator : Indicator → Indicator.Field → Prop
  | .sma n, .value | .ema n, .value | .wma n, .value | .rsi n, .value | .roc n, .value | .stddev n, .value => InPeriods n
  | .macd fast slow signal, field =>
    field ∈ [.macdLine, .macdSignal, .macdHistogram] ∧ InPeriods fast ∧ InPeriods slow ∧ InPeriods signal ∧ fast < slow
  | .bollinger n hundredths, field =>
    field ∈ [.upperBand, .middleBand, .lowerBand] ∧ InPeriods n ∧ 1 ≤ hundredths ∧ hundredths ≤ Document.mostHundredths
  | _, _ => False

def Operand.WellFormed : Operand → Prop
  | .column name place => IsName name ∧ place.offset ≤ mostOffset
  | .indicator which field name place => SoundIndicator which field ∧ IsName name ∧ place.offset ≤ mostOffset
  | .constant value => value.isFinite

def Condition.WellFormed (c : Condition) : Prop := c.left.WellFormed ∧ c.right.WellFormed

def Expression.WellFormed (e : Expression) : Prop := ∀ c ∈ e.conditions, c.WellFormed

private theorem isName_of_read {value : Value} {name : String} (read : IsColumnName value name) : IsName name := by
  obtain ⟨named⟩ := read
  refine ⟨mt Text.lowerAscii_eq_empty_iff.1 named, ?_, Text.lowerAscii_lowerAscii _⟩
  rw [Text.trim_lowerAscii, Text.trim_trim]

private theorem offset_of_placed {fields : Fields} {place : Place} (placed : IsPlace fields place) :
    place.offset ≤ mostOffset := by
  have within {value : Value} {n : Nat} (read : IsOffset value n) : n ≤ mostOffset := by
    obtain ⟨most⟩ := read
    exact most
  exact placed.offset.holds (Nat.zero_le mostOffset) within

private theorem sound_of_single {name : String} {make : Nat → Indicator} {usual n : Nat} {field : Indicator.Field}
    (named : IsSingle name make usual) : SoundIndicator (make n) field ↔ field = .value ∧ InPeriods n := by
  cases named <;> cases field <;> simp [SoundIndicator]

private theorem inPeriods_of_single {name : String} {make : Nat → Indicator} {usual : Nat}
    (named : IsSingle name make usual) : InPeriods usual := by
  cases named <;> exact ⟨by decide, by decide⟩

private theorem field_of_macd {name : String} {field : Indicator.Field} (named : IsMacd name field) :
    field ∈ [.macdLine, .macdSignal, .macdHistogram] := by
  cases named <;> decide

private theorem field_of_bollinger {name : String} {field : Indicator.Field} (named : IsBollinger name field) :
    field ∈ [.upperBand, .middleBand, .lowerBand] := by
  cases named <;> decide

private theorem sound_of_read {name : String} {values : List Value} {which : Indicator × Indicator.Field}
    (read : IsParameters name values which) : SoundIndicator which.1 which.2 := by
  have inside {n : Nat} (least : 1 ≤ n := by decide) (most : n ≤ mostPeriod := by decide) : InPeriods n := ⟨least, most⟩
  cases read with
  | usualSingle named => exact (sound_of_single named).2 ⟨rfl, inPeriods_of_single named⟩
  | usualMacd named => exact ⟨field_of_macd named, inside, inside, inside, by decide⟩
  | usualBollinger named => exact ⟨field_of_bollinger named, inside, by decide, by decide⟩
  | single named read => exact (sound_of_single named).2 ⟨rfl, read.range⟩
  | macd named fast_read slow_read signal_read below =>
    exact ⟨field_of_macd named, fast_read.range, slow_read.range, signal_read.range, below⟩
  | bollinger named period_read width_read =>
    obtain ⟨width⟩ := width_read
    exact ⟨field_of_bollinger named, period_read.range, width.range⟩

private theorem operand_of_read {value : Value} {x : Operand} (read : IsOperand value x) : x.WellFormed := by
  cases read with
  | column kind only named placed =>
    obtain ⟨_, -, name_read⟩ := named
    exact ⟨isName_of_read name_read, offset_of_placed placed⟩
  | indicator kind only computed named placed =>
    obtain ⟨_, -, name_read⟩ := named
    refine ⟨?_, isName_of_read name_read, offset_of_placed placed⟩
    cases computed with
    | usual _ _ read => exact sound_of_read read
    | listed _ _ read => exact sound_of_read read
  | constant kind only given =>
    obtain ⟨_, -, ⟨finite⟩⟩ := given
    exact finite

private theorem condition_of_read {value : Value} {c : Condition} (read : IsCondition value c) : c.WellFormed := by
  obtain ⟨-, ⟨_, -, left⟩, -, ⟨_, -, right⟩⟩ := read
  exact ⟨operand_of_read left, operand_of_read right⟩

theorem wellFormed_of_read {value : Value} {e : Expression} (read : IsFilter value e) : e.WellFormed := by
  obtain ⟨-, -, -, -, each⟩ := read
  have both : List.Forall₂ (fun (c : Condition) (_ : Value) => c.WellFormed ∧ True) e.conditions _ :=
    (each.imp fun _ _ read => ⟨condition_of_read read, trivial⟩).flip
  exact ((List.forall₂_and_left _ _).1 both).1

private theorem only_normal {keys : List String} {fields : Fields} (names : fields.map Prod.fst = keys) :
    Only keys (Json.normalFields fields) := by
  rintro ⟨key, value⟩ member
  obtain ⟨original, there, -⟩ := Json.mem_normalFields member
  rw [← names]
  exact List.mem_map.2 ⟨_, there, rfl⟩

private theorem nodup_keys {keys : List String} {fields : Fields} (names : fields.map Prod.fst = keys)
    (distinct : keys.Nodup) : (fields.map Prod.fst).Nodup := by
  rwa [names]

private theorem lookup_normal {fields : Fields} {key : String} {value written : Value}
    (distinct : (fields.map Prod.fst).Nodup) (there : fields.lookup key = some value) (same : value.normal = written) :
    (Json.normalFields fields).lookup key = some written := by
  rw [Json.lookup_normalFields distinct, there, Option.map_some, same]

private theorem given_normal {α : Type} {denotes : Value → α → Prop} {fields : Fields} {key : String}
    {value written : Value} {x : α}
    (distinct : (fields.map Prod.fst).Nodup) (there : fields.lookup key = some value) (same : value.normal = written)
    (reads : denotes written x) : Given denotes (Json.normalFields fields) key x :=
  ⟨written, lookup_normal distinct there same, reads⟩

private theorem columnName_of_isName {s : String} (named : IsName s) : IsColumnName (.text s) s := by
  obtain ⟨nonempty, trimmed, lower⟩ := named
  have read : IsColumnName (.text s) (Text.lowerAscii (Text.trim s)) := .text (by rwa [trimmed])
  rwa [trimmed, lower] at read

private theorem logic_of_name (logic : Logic) : IsLogic (.text logic.name) logic := by
  cases logic
  · exact .all
  · exact .any

private theorem comparison_of_symbol (c : Comparison) : IsComparison (.text c.symbol) c := by
  cases c
  · exact .greater
  · exact .less
  · exact .atLeast
  · exact .atMost
  · exact .equal
  · exact .unequal

private theorem timeframe_of_name (timeframe : Timeframe) : IsTimeframe (.text timeframe.name) timeframe := by
  cases timeframe
  · exact .intraday
  · exact .daily
  · exact .weekly

private theorem period_of_number {n : Nat} (range : InPeriods n) :
    IsPeriod (.number (.integer n)) n := ⟨.integer n, range⟩

private theorem width_of_number {hundredths : Nat} (range : 1 ≤ hundredths ∧ hundredths ≤ Document.mostHundredths) :
    IsBandWidth (.number (.double (Indicator.bandWidth hundredths))) hundredths :=
  .number (isWidth_bandWidth range.1 range.2)

private theorem single_reads {name : String} {make : Nat → Indicator} {usual n : Nat} {field : Indicator.Field}
    (named : IsSingle name make usual) (sound : SoundIndicator (make n) field) :
    IsParameters name [.number (.integer n)] (make n, field) := by
  obtain ⟨rfl, range⟩ := (sound_of_single named).1 sound
  exact .single named (period_of_number range)

/-- An indicator is found again under the name and the parameters that it is written with. -/
theorem parameters_of_sound {which : Indicator} {field : Indicator.Field} (sound : SoundIndicator which field) :
    IsParameters (nameOf which field) ((params which).map .number) (which, field) := by
  cases which with
  | macd fast slow signal =>
    obtain ⟨fits, fast_range, slow_range, signal_range, below⟩ := sound
    have named : IsMacd (nameOf (.macd fast slow signal) field) field := by
      simp only [List.mem_cons, List.not_mem_nil, or_false] at fits
      rcases fits with rfl | rfl | rfl
      · exact .line
      · exact .signal
      · exact .histogram
    exact .macd named (period_of_number fast_range) (period_of_number slow_range) (period_of_number signal_range) below
  | bollinger n hundredths =>
    obtain ⟨fits, period_range, width_range⟩ := sound
    have named : IsBollinger (nameOf (.bollinger n hundredths) field) field := by
      simp only [List.mem_cons, List.not_mem_nil, or_false] at fits
      rcases fits with rfl | rfl | rfl
      · exact .upper
      · exact .middle
      · exact .lower
    exact .bollinger named (period_of_number period_range) (width_of_number width_range)
  | sma n => exact single_reads .sma sound
  | ema n => exact single_reads .ema sound
  | wma n => exact single_reads .wma sound
  | rsi n => exact single_reads .rsi sound
  | roc n => exact single_reads .roc sound
  | stddev n => exact single_reads .stddev sound

private theorem place_reads {fields : Fields} {place : Place} (most : place.offset ≤ mostOffset)
    (distinct : (fields.map Prod.fst).Nodup)
    (timeframe : fields.lookup "timeframe" = some (.text place.timeframe.name))
    (offset : fields.lookup "offset" = some (.ofNat place.offset)) : IsPlace (Json.normalFields fields) place := by
  constructor
  · exact .given (given_normal distinct timeframe rfl (timeframe_of_name _))
  · exact .given (given_normal distinct offset rfl (.integer most))

private theorem operand_reads {x : Operand} (sound : x.WellFormed) : IsOperand (Value.object x.fields).normal x := by
  cases x with
  | column name place =>
    obtain ⟨named, most⟩ := sound
    have keys : (Operand.column name place).fields.map Prod.fst = ["type", "name", "timeframe", "offset"] := rfl
    have distinct := nodup_keys keys (by decide)
    refine .column (lookup_normal distinct rfl rfl) (only_normal keys) ?_ (place_reads most distinct rfl rfl)
    exact given_normal distinct rfl rfl (columnName_of_isName named)
  | indicator which field name place =>
    obtain ⟨fits, named, most⟩ := sound
    have read := parameters_of_sound fits
    have keys : (Operand.indicator which field name place).fields.map Prod.fst =
        ["type", "name", "params", "column", "timeframe", "offset"] := rfl
    have distinct := nodup_keys keys (by decide)
    have listed : (Value.array ((params which).map .number)).normal = .array ((params which).map .number) := by
      rw [Value.normal, Json.normalItems_eq_map, List.map_map]
      rfl
    have computed := IsIndicator.listed (lookup_normal distinct rfl rfl) (lookup_normal distinct rfl listed) read
    refine .indicator (lookup_normal distinct rfl rfl) (only_normal keys) computed ?_ (place_reads most distinct rfl rfl)
    exact given_normal distinct rfl rfl (columnName_of_isName named)
  | constant value =>
    have finite : value.isFinite = true := sound
    have keys : (Operand.constant value).fields.map Prod.fst = ["type", "value"] := rfl
    have distinct := nodup_keys keys (by decide)
    have written : (Value.ofFloat value).normal = .number (.double value) := by
      rw [Value.ofFloat, if_pos finite]
      rfl
    refine .constant (lookup_normal distinct rfl rfl) (only_normal keys) (given_normal distinct rfl written ?_)
    exact IsConstant.number finite

private theorem condition_reads {c : Condition} (sound : c.WellFormed) :
    IsCondition (Value.object c.fields).normal c := by
  have keys : c.fields.map Prod.fst = ["left", "operator", "right"] := rfl
  have distinct := nodup_keys keys (by decide)
  refine .object (only_normal keys) ?_ ?_ ?_
  · exact given_normal distinct rfl rfl (operand_reads sound.1)
  · exact given_normal distinct rfl rfl (comparison_of_symbol _)
  · exact given_normal distinct rfl rfl (operand_reads sound.2)

theorem filter_reads {e : Expression} (sound : e.WellFormed) : IsFilter e.toJson e := by
  have keys : e.fields.map Prod.fst = ["logic", "conditions"] := rfl
  have distinct := nodup_keys keys (by decide)
  have listed : (Value.array (e.conditions.map fun c => .object c.fields)).normal =
      .array (e.conditions.map fun c => (Value.object c.fields).normal) := by
    rw [Value.normal, Json.normalItems_eq_map, List.map_map]
    rfl
  refine .object (only_normal keys) ?_ (lookup_normal distinct rfl listed) ?_ ?_
  · exact given_normal distinct rfl rfl (logic_of_name _)
  · rw [List.length_map]
    exact e.count_range
  · rw [List.forall₂_map_left_iff, List.forall₂_same]
    intro c member
    exact condition_reads (sound c member)

/-- The filters that come out of documents are the well-formed ones. Each is read back from its own document, which is
therefore the same when it is written again. -/
theorem Expression.ofJson_toJson (e : Expression) :
    (e.WellFormed ↔ ∃ value, Expression.ofJson value = .ok e) ∧
      (e.WellFormed → Expression.ofJson e.toJson = .ok e) ∧
      ∀ value, Expression.ofJson value = .ok e →
        Expression.ofJson e.toJson = .ok e ∧ (Expression.ofJson e.toJson).map Expression.toJson = .ok e.toJson := by
  have accepted {value : Value} : Expression.ofJson value = .ok e ↔ IsFilter value e :=
    Checked.toExcept_eq_ok_iff.trans Document.filter_passes
  have again (sound : e.WellFormed) : Expression.ofJson e.toJson = .ok e := accepted.2 (filter_reads sound)
  refine ⟨⟨?_, ?_⟩, again, ?_⟩
  · intro sound
    exact ⟨e.toJson, again sound⟩
  · rintro ⟨value, read⟩
    exact wellFormed_of_read (accepted.1 read)
  · intro value read
    have same := again (wellFormed_of_read (accepted.1 read))
    refine ⟨same, ?_⟩
    rw [same]
    rfl

theorem Expression.ofJson_toJson_sample :
    let bands : Operand := .indicator (.bollinger 20 250) .upperBand "close" ⟨.weekly, 1⟩
    let e : Expression := ⟨.any, [⟨bands, .less, .constant 1.5⟩], by decide⟩
    Expression.ofJson e.toJson = .ok e := by
  intro bands e
  refine (Expression.ofJson_toJson e).2.1 ?_
  intro c member
  obtain rfl := List.mem_singleton.1 member
  have finite : (1.5 : Float).isFinite = true := by decide
  refine ⟨⟨⟨by decide, ⟨by decide, by decide⟩, by decide, by decide⟩, ⟨by decide, by decide, by decide⟩, by decide⟩, ?_⟩
  exact finite

end Screener.Filter
