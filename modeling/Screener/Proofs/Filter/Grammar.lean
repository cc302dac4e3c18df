import Screener.Proofs.Filter.Width
import Screener.Proofs.Json.Pointer

/-! The grammar of filter documents, said without the checks, and that the checks accept it and nothing else. Each
judgment relates a part of a document to what it denotes. -/
namespace Screener.Filter
open Json (Value Fields)

namespace Grammar
variable {α : Type}

def Only (keys : List String) (fields : Fields) : Prop := ∀ field ∈ fields, field.1 ∈ keys

/-- A field that has to be there. -/
def Given (denotes : Value → α → Prop) (fields : Fields) (key : String) (x : α) : Prop :=
  ∃ value, fields.lookup key = some value ∧ denotes value x

/-- A field that may be left out, and what stands for it then. -/
inductive Default (denotes : Value → α → Prop) (standard : α) (fields : Fields) (key : String) : α → Prop
  | absent (none : fields.lookup key = none) : Default denotes standard fields key standard
  | given {x : α} (given : Given denotes fields key x) : Default denotes standard fields key x

theorem Default.holds {denotes : Value → α → Prop} {standard x : α} {fields : Fields} {key : String} {P : α → Prop}
    (read : Default denotes standard fields key x) (of_standard : P standard)
    (of_given : ∀ {value x}, denotes value x → P x) : P x := by
  cases read with
  | absent => exact of_standard
  | given given =>
    obtain ⟨_, -, denotes⟩ := given
    exact of_given denotes

inductive IsLogic : Value → Logic → Prop
  | all : IsLogic (.text "AND") .all
  | any : IsLogic (.text "OR") .any

inductive IsComparison : Value → Comparison → Prop
  | greater : IsComparison (.text ">") .greater
  | less : IsComparison (.text "<") .less
  | atLeast : IsComparison (.text ">=") .atLeast
  | atMost : IsComparison (.text "<=") .atMost
  | equal : IsComparison (.text "==") .equal
  | unequal : IsComparison (.text "!=") .unequal

inductive IsTimeframe : Value → Timeframe → Prop
  | intraday : IsTimeframe (.text "intraday") .intraday
  | daily : IsTimeframe (.text "daily") .daily
  | weekly : IsTimeframe (.text "weekly") .weekly

inductive IsOffset : Value → Nat → Prop
  | integer {n : Nat} (most : n ≤ 1000000) : IsOffset (.number (.integer n)) n

inductive IsColumnName : Value → String → Prop
  | text {s : String} (named : Text.trim s ≠ "") : IsColumnName (.text s) (Text.lowerAscii (Text.trim s))

inductive IsConstant : Value → Float → Prop
  | number {number : Json.Number} (finite : number.toFloat.isFinite) : IsConstant (.number number) number.toFloat

/-- A whole number, also one that is written as a double. -/
inductive IsWhole : Value → Nat → Prop
  | integer (n : Nat) : IsWhole (.number (.integer n)) n
  | double {x : Float} {n : Nat} (number : Decimal.rational? x = some (n : ℚ)) : IsWhole (.number (.double x)) n

structure IsPeriod (value : Value) (n : Nat) : Prop where
  whole : IsWhole value n
  range : 1 ≤ n ∧ n ≤ 1000000

inductive IsBandWidth : Value → Nat → Prop
  | number {number : Json.Number} {n : Nat} (width : IsWidth number.toFloat n) : IsBandWidth (.number number) n

/-- The indicators of a single period, and the period that stands for one left out. -/
inductive IsSingle : String → (Nat → Indicator) → Nat → Prop
  | sma : IsSingle "sma" .sma 20
  | ema : IsSingle "ema" .ema 20
  | wma : IsSingle "wma" .wma 20
  | rsi : IsSingle "rsi" .rsi 14
  | roc : IsSingle "roc" .roc 12
  | stddev : IsSingle "stddev" .stddev 20

inductive IsMacd : String → Indicator.Field → Prop
  | line : IsMacd "macd" .macdLine
  | signal : IsMacd "macd_signal" .macdSignal
  | histogram : IsMacd "macd_hist" .macdHistogram

inductive IsBollinger : String → Indicator.Field → Prop
  | upper : IsBollinger "bb_upper" .upperBand
  | middle : IsBollinger "bb_middle" .middleBand
  | lower : IsBollinger "bb_lower" .lowerBand

/-- What a name and its parameters denote. The parameters may be left out, all of them together. -/
inductive IsParameters : String → List Value → Indicator × Indicator.Field → Prop
  | usualSingle {name : String} {make : Nat → Indicator} {usual : Nat} (named : IsSingle name make usual) :
    IsParameters name [] (make usual, .value)
  | usualMacd {name : String} {field : Indicator.Field} (named : IsMacd name field) :
    IsParameters name [] (.macd 12 26 9, field)
  | usualBollinger {name : String} {field : Indicator.Field} (named : IsBollinger name field) :
    IsParameters name [] (.bollinger 20 200, field)
  | single {name : String} {make : Nat → Indicator} {usual n : Nat} {period : Value} (named : IsSingle name make usual)
    (read : IsPeriod period n) : IsParameters name [period] (make n, .value)
  | macd {name : String} {field : Indicator.Field} {fast slow signal : Value} {m n k : Nat} (named : IsMacd name field)
    (fast_read : IsPeriod fast m) (slow_read : IsPeriod slow n) (signal_read : IsPeriod signal k) (below : m < n) :
    IsParameters name [fast, slow, signal] (.macd m n k, field)
  | bollinger {name : String} {field : Indicator.Field} {period width : Value} {n k : Nat}
    (named : IsBollinger name field) (period_read : IsPeriod period n) (width_read : IsBandWidth width k) :
    IsParameters name [period, width] (.bollinger n k, field)

inductive IsIndicator (fields : Fields) : Indicator × Indicator.Field → Prop
  | usual {name : String} {which : Indicator × Indicator.Field} (named : fields.lookup "name" = some (.text name))
    (none : fields.lookup "params" = none) (read : IsParameters name [] which) : IsIndicator fields which
  | listed {name : String} {values : List Value} {which : Indicator × Indicator.Field}
    (named : fields.lookup "name" = some (.text name)) (given : fields.lookup "params" = some (.array values))
    (read : IsParameters name values which) : IsIndicator fields which

structure IsPlace (fields : Fields) (place : Place) : Prop where
  timeframe : Default IsTimeframe .daily fields "timeframe" place.timeframe
  offset : Default IsOffset 0 fields "offset" place.offset

inductive IsOperand : Value → Operand → Prop
  | column {fields : Fields} {name : String} {place : Place} (kind : fields.lookup "type" = some (.text "column"))
    (only : Only ["type", "name", "timeframe", "offset"] fields) (named : Given IsColumnName fields "name" name)
    (placed : IsPlace fields place) : IsOperand (.object fields) (.column name place)
  | indicator {fields : Fields} {which : Indicator} {field : Indicator.Field} {name : String} {place : Place}
    (kind : fields.lookup "type" = some (.text "indicator"))
    (only : Only ["type", "name", "params", "column", "timeframe", "offset"] fields)
    (computed : IsIndicator fields (which, field)) (named : Given IsColumnName fields "column" name)
    (placed : IsPlace fields place) : IsOperand (.object fields) (.indicator which field name place)
  | constant {fields : Fields} {value : Float} (kind : fields.lookup "type" = some (.text "constant"))
    (only : Only ["type", "value"] fields) (given : Given IsConstant fields "value" value) :
    IsOperand (.object fields) (.constant value)

inductive IsCondition : Value → Condition → Prop
  | object {fields : Fields} {c : Condition} (only : Only ["left", "operator", "right"] fields)
    (left : Given IsOperand fields "left" c.left) (comparison : Given IsComparison fields "operator" c.comparison)
    (right : Given IsOperand fields "right" c.right) : IsCondition (.object fields) c

inductive IsFilter : Value → Expression → Prop
  | object {fields : Fields} {values : List Value} {e : Expression} (only : Only ["logic", "conditions"] fields)
    (logic : Given IsLogic fields "logic" e.logic) (listed : fields.lookup "conditions" = some (.array values))
    (count : 1 ≤ values.length ∧ values.length ≤ 50)
    (each : List.Forall₂ IsCondition values e.conditions) : IsFilter (.object fields) e

end Grammar

open Grammar

namespace Document
variable {α : Type}

private theorem object_passes {value : Value} {fields : Fields} :
    (object value).Passes fields ↔ value = .object fields := by
  cases value <;> simp [object]

private theorem array_passes {value : Value} {items : List Value} :
    (array value).Passes items ↔ value = .array items := by
  cases value <;> simp [array]

private theorem text_passes {value : Value} {s : String} : (text value).Passes s ↔ value = .text s := by
  cases value <;> simp [text]

theorem foreign_eq_nil {allowed : List String} {fields : Fields} : foreign allowed fields = [] ↔ Only allowed fields := by
  simp [foreign, Only]

theorem required_passes {fields : Fields} {key : String} {check : Value → Checked α} {denotes : Value → α → Prop}
    (reads : ∀ {value x}, (check value).Passes x ↔ denotes value x) {x : α} :
    (required fields key check).Passes x ↔ Given denotes fields key x := by
  unfold required Given
  cases fields.lookup key <;> simp [reads]

private theorem optional_passes {fields : Fields} {key : String} {standard : α} {check : Value → Checked α}
    {denotes : Value → α → Prop} (reads : ∀ {value x}, (check value).Passes x ↔ denotes value x) {x : α} :
    (optional fields key standard check).Passes x ↔ Default denotes standard fields key x := by
  unfold optional
  cases found : fields.lookup key with
  | none =>
    simp only [Checked.passes_ok]
    constructor
    · rintro rfl
      exact .absent found
    · rintro (_ | ⟨_, given, -⟩)
      · rfl
      · rw [found] at given
        cases given
  | some value =>
    simp only [Checked.passes_under, reads]
    constructor
    · intro denotes
      exact .given ⟨value, found, denotes⟩
    · rintro (none | ⟨_, given, denotes⟩)
      · rw [found] at none
        cases none
      · rw [found] at given
        cases given
        exact denotes

private theorem word_passes {expected : String} {ofName? : String → Option α} {value : Value} {x : α} :
    (word expected ofName? value).Passes x ↔ ∃ s, value = .text s ∧ ofName? s = some x := by
  simp only [word, Checked.passes_andThen, text_passes, Checked.passes_ofOption]

theorem logic_passes {value : Value} {x : Logic} : (logic value).Passes x ↔ IsLogic value x := by
  rw [logic, word_passes]
  constructor
  · rintro ⟨s, rfl, named⟩
    obtain rfl : x.name = s := by simpa using List.find?_some named
    cases x
    · exact .all
    · exact .any
  · rintro (_ | _)
    · exact ⟨_, rfl, Logic.ofName?_name .all⟩
    · exact ⟨_, rfl, Logic.ofName?_name .any⟩

private theorem comparison_passes {value : Value} {x : Comparison} :
    (comparison value).Passes x ↔ IsComparison value x := by
  rw [comparison, word_passes]
  constructor
  · rintro ⟨s, rfl, named⟩
    obtain rfl : x.symbol = s := by simpa using List.find?_some named
    cases x
    · exact .greater
    · exact .less
    · exact .atLeast
    · exact .atMost
    · exact .equal
    · exact .unequal
  · intro denotes
    have named := Comparison.ofSymbol?_symbol x
    cases denotes <;> exact ⟨_, rfl, named⟩

private theorem timeframe_passes {value : Value} {x : Timeframe} :
    (timeframe value).Passes x ↔ IsTimeframe value x := by
  rw [timeframe, word_passes]
  constructor
  · rintro ⟨s, rfl, named⟩
    obtain rfl : x.name = s := by simpa using List.find?_some named
    cases x
    · exact .intraday
    · exact .daily
    · exact .weekly
  · intro denotes
    have named := Timeframe.ofName?_name x
    cases denotes <;> exact ⟨_, rfl, named⟩

private theorem columnName_passes {value : Value} {name : String} :
    (columnName value).Passes name ↔ IsColumnName value name := by
  simp only [columnName, Checked.passes_andThen, text_passes, String.isEmpty_iff]
  constructor
  · rintro ⟨s, rfl, passes⟩
    split at passes
    · exact absurd passes Checked.not_passes_fail
    · rename_i named
      obtain rfl := Checked.passes_ok.1 passes
      exact .text named
  · rintro ⟨named⟩
    refine ⟨_, rfl, ?_⟩
    rw [if_neg named]
    exact Checked.passes_ok.2 rfl

private theorem offset_passes {value : Value} {n : Nat} : (offset value).Passes n ↔ IsOffset value n := by
  constructor
  · intro passes
    unfold offset at passes
    split at passes
    · rename_i i
      split at passes
      · exact absurd passes Checked.not_passes_fail
      · rename_i nonneg
        obtain ⟨m, rfl⟩ := Int.eq_ofNat_of_zero_le (Int.not_lt.1 nonneg)
        rw [Int.toNat_natCast] at passes
        split at passes
        · rename_i most
          obtain rfl := Checked.passes_ok.1 passes
          exact .integer most
        · exact absurd passes Checked.not_passes_fail
    · exact absurd passes Checked.not_passes_fail
  · rintro ⟨most⟩
    have nonneg : ¬(n : Int) < 0 := by omega
    have small : n ≤ mostOffset := most
    simp only [offset, if_neg nonneg, Int.toNat_natCast, if_pos small, Checked.passes_ok]

theorem natural?_eq_some_iff {value : Value} {n : Nat} (range : n ≤ widestPeriod) :
    natural? value = some n ↔ IsWhole value n := by
  constructor
  · intro read
    unfold natural? at read
    split at read
    · split at read
      · cases read
      · rename_i nonneg
        obtain ⟨m, rfl⟩ := Int.eq_ofNat_of_zero_le (Int.not_lt.1 nonneg)
        rw [Int.toNat_natCast, Option.some.injEq] at read
        subst read
        exact .integer _
    · obtain ⟨whole, -⟩ := Option.filter_eq_some_iff.1 read
      exact .double (Decimal.whole?_eq_some_iff.1 whole)
    · cases read
  · rintro (_ | number)
    · have nonneg : ¬(n : Int) < 0 := by omega
      rw [natural?, if_neg nonneg, Int.toNat_natCast]
    · rw [natural?, Decimal.whole?_eq_some_iff.2 number, Option.filter_some, if_pos (decide_eq_true range)]

private theorem period_passes {value : Value} {n : Nat} : (period value).Passes n ↔ IsPeriod value n := by
  have narrow : mostPeriod ≤ widestPeriod := by decide
  constructor
  · intro passes
    unfold period at passes
    split at passes
    · exact absurd passes Checked.not_passes_fail
    · exact absurd passes Checked.not_passes_fail
    · rename_i m nonzero read
      split at passes
      · rename_i most
        obtain rfl := Checked.passes_ok.1 passes
        exact ⟨(natural?_eq_some_iff (most.trans narrow)).1 read, Nat.pos_of_ne_zero nonzero, most⟩
      · exact absurd passes Checked.not_passes_fail
  · rintro ⟨whole, least, most⟩
    obtain ⟨m, rfl⟩ := Nat.exists_eq_add_of_le' least
    have small : m + 1 ≤ mostPeriod := most
    have read := (natural?_eq_some_iff (small.trans narrow)).2 whole
    simp only [period, read, if_pos small, Checked.passes_ok]

private theorem constant_passes {value : Value} {x : Float} : (constant value).Passes x ↔ IsConstant value x := by
  constructor
  · intro passes
    unfold constant at passes
    split at passes
    · split at passes
      · rename_i finite
        obtain rfl := Checked.passes_ok.1 passes
        exact .number finite
      · exact absurd passes Checked.not_passes_fail
    · exact absurd passes Checked.not_passes_fail
  · rintro ⟨finite⟩
    rw [constant, if_pos finite]
    exact Checked.passes_ok.2 rfl

private theorem bandWidth_passes {value : Value} {n : Nat} : (hundredths value).Passes n ↔ IsBandWidth value n := by
  rw [hundredths_passes]
  constructor
  · rintro ⟨number, rfl, width⟩
    exact .number width
  · rintro ⟨width⟩
    exact ⟨_, rfl, width⟩

private theorem place_passes {fields : Fields} {p : Place} : (place fields).Passes p ↔ IsPlace fields p := by
  simp only [place, Checked.passes_both, optional_passes timeframe_passes, optional_passes offset_passes]
  constructor
  · rintro ⟨_, _, timeframe, offset, rfl⟩
    exact ⟨timeframe, offset⟩
  · rintro ⟨timeframe, offset⟩
    exact ⟨_, _, timeframe, offset, rfl⟩

private theorem macd_passes {fast slow signal : Value} {which : Indicator} :
    (macd fast slow signal).Passes which ↔ ∃ m n k, IsPeriod fast m ∧ IsPeriod slow n ∧ IsPeriod signal k ∧ m < n ∧
      which = .macd m n k := by
  simp only [macd, Checked.passes_andThen, Checked.passes_both, Checked.passes_under, period_passes]
  constructor
  · rintro ⟨_, ⟨m, _, fast_read, ⟨n, k, slow_read, signal_read, rfl⟩, rfl⟩, passes⟩
    dsimp only at passes
    split at passes
    · rename_i below
      exact ⟨m, n, k, fast_read, slow_read, signal_read, below, (Checked.passes_ok.1 passes).symm⟩
    · exact absurd passes Checked.not_passes_fail
  · rintro ⟨m, n, k, fast_read, slow_read, signal_read, below, rfl⟩
    refine ⟨(m, n, k), ⟨m, (n, k), fast_read, ⟨n, k, slow_read, signal_read, rfl⟩, rfl⟩, ?_⟩
    dsimp only
    rw [if_pos below]
    exact Checked.passes_ok.2 rfl

inductive Names : String → Family → Prop
  | single {name : String} {make : Nat → Indicator} {usual : Nat} (named : IsSingle name make usual) :
    Names name (.single make usual)
  | macd {name : String} {field : Indicator.Field} (named : IsMacd name field) : Names name (.macd field)
  | bollinger {name : String} {field : Indicator.Field} (named : IsBollinger name field) : Names name (.bollinger field)

theorem names_iff {name : String} {family : Family} :
    Family.ofName? name = some family ↔ Names name family := by
  constructor
  · intro found
    have listed : (name, family) ∈ Family.every := (Json.lookup_eq_some_iff_mem (by decide)).1 found
    simp only [Family.every, List.mem_cons, Prod.mk.injEq, List.not_mem_nil, or_false] at listed
    rcases listed with ⟨rfl, rfl⟩ | ⟨rfl, rfl⟩ | ⟨rfl, rfl⟩ | ⟨rfl, rfl⟩ | ⟨rfl, rfl⟩ | ⟨rfl, rfl⟩ | ⟨rfl, rfl⟩ |
      ⟨rfl, rfl⟩ | ⟨rfl, rfl⟩ | ⟨rfl, rfl⟩ | ⟨rfl, rfl⟩ | ⟨rfl, rfl⟩
    · exact .single .sma
    · exact .single .ema
    · exact .single .wma
    · exact .single .rsi
    · exact .single .roc
    · exact .single .stddev
    · exact .macd .line
    · exact .macd .signal
    · exact .macd .histogram
    · exact .bollinger .upper
    · exact .bollinger .middle
    · exact .bollinger .lower
  · rintro (named | named | named) <;> cases named <;> rfl

theorem Names.unique {name : String} {family other : Family} (known : Names name family)
    (also : Names name other) : family = other :=
  Option.some.inj ((names_iff.2 known).symm.trans (names_iff.2 also))

private theorem exists_names {name : String} {values : List Value} {which : Indicator × Indicator.Field}
    (read : IsParameters name values which) : ∃ family, Names name family := by
  cases read with
  | usualSingle named => exact ⟨_, .single named⟩
  | usualMacd named => exact ⟨_, .macd named⟩
  | usualBollinger named => exact ⟨_, .bollinger named⟩
  | single named => exact ⟨_, .single named⟩
  | macd named => exact ⟨_, .macd named⟩
  | bollinger named => exact ⟨_, .bollinger named⟩

theorem standardIndicator_iff {name : String} {family : Family} {which : Indicator × Indicator.Field}
    (known : Names name family) : standardIndicator family = which ↔ IsParameters name [] which := by
  constructor
  · rintro rfl
    cases known with
    | single named => exact .usualSingle named
    | macd named => exact .usualMacd named
    | bollinger named => exact .usualBollinger named
  · intro read
    cases read with
    | usualSingle named => rw [known.unique (.single named), standardIndicator]
    | usualMacd named => rw [known.unique (.macd named), standardIndicator]
    | usualBollinger named => rw [known.unique (.bollinger named), standardIndicator]

private theorem parameters_passes {name : String} {family : Family} {values : List Value}
    {which : Indicator × Indicator.Field}
    (known : Names name family) : (parameters name family values).Passes which ↔ IsParameters name values which := by
  constructor
  · intro passes
    unfold parameters at passes
    split at passes
    · exact (standardIndicator_iff known).1 (Checked.passes_ok.1 passes)
    · obtain named | _ | _ := known
      obtain ⟨n, read, rfl⟩ := Checked.passes_map.1 passes
      exact .single named (period_passes.1 (Checked.passes_under.1 read))
    · obtain _ | named | _ := known
      obtain ⟨_, read, rfl⟩ := Checked.passes_map.1 passes
      obtain ⟨m, n, k, fast_read, slow_read, signal_read, below, rfl⟩ := macd_passes.1 read
      exact .macd named fast_read slow_read signal_read below
    · obtain _ | _ | named := known
      obtain ⟨n, k, period_read, width_read, rfl⟩ := Checked.passes_both.1 passes
      exact .bollinger named (period_passes.1 (Checked.passes_under.1 period_read))
        (bandWidth_passes.1 (Checked.passes_under.1 width_read))
    · exact absurd passes Checked.not_passes_fail
  · intro read
    obtain empty | listed := eq_or_ne values []
    · subst empty
      have usual := (standardIndicator_iff known).2 read
      rw [parameters]
      exact Checked.passes_ok.2 usual
    · cases read with
      | single named read =>
        obtain rfl := known.unique (.single named)
        exact Checked.passes_map.2 ⟨_, Checked.passes_under.2 (period_passes.2 read), rfl⟩
      | macd named fast_read slow_read signal_read below =>
        obtain rfl := known.unique (.macd named)
        have passes := macd_passes.2 ⟨_, _, _, fast_read, slow_read, signal_read, below, rfl⟩
        exact Checked.passes_map.2 ⟨_, passes, rfl⟩
      | bollinger named period_read width_read =>
        obtain rfl := known.unique (.bollinger named)
        refine Checked.passes_both.2 ⟨_, _, Checked.passes_under.2 ?_, Checked.passes_under.2 ?_, rfl⟩
        · exact period_passes.2 period_read
        · exact bandWidth_passes.2 width_read
      | _ => exact absurd rfl listed

private theorem indicator_passes {fields : Fields} {which : Indicator × Indicator.Field} :
    (indicator fields).Passes which ↔ IsIndicator fields which := by
  simp only [indicator, Checked.passes_andThen]
  constructor
  · rintro ⟨name, named, passes⟩
    obtain ⟨_, named, rfl⟩ := (required_passes text_passes).1 named
    split at passes
    · exact absurd passes Checked.not_passes_failAt
    · rename_i family found
      have known := names_iff.1 found
      split at passes
      · rename_i none
        exact .usual named none ((standardIndicator_iff known).1 (Checked.passes_ok.1 passes))
      · rename_i value given
        obtain ⟨values, listed, read⟩ := Checked.passes_andThen.1 (Checked.passes_under.1 passes)
        obtain rfl := array_passes.1 listed
        exact .listed named given ((parameters_passes known).1 read)
  · intro computed
    cases computed with
    | usual named none read =>
      obtain ⟨family, known⟩ := exists_names read
      refine ⟨_, (required_passes text_passes).2 ⟨_, named, rfl⟩, ?_⟩
      rw [names_iff.2 known]
      dsimp only
      rw [none]
      exact Checked.passes_ok.2 ((standardIndicator_iff known).2 read)
    | listed named given read =>
      obtain ⟨family, known⟩ := exists_names read
      refine ⟨_, (required_passes text_passes).2 ⟨_, named, rfl⟩, ?_⟩
      rw [names_iff.2 known]
      dsimp only
      rw [given]
      refine Checked.passes_under.2 (Checked.passes_andThen.2 ⟨_, array_passes.2 rfl, ?_⟩)
      exact (parameters_passes known).2 read

theorem kind_eq_some_iff {name : String} {kind : Kind} :
    Kind.ofName? name = some kind ↔
      (name = "column" ∧ kind = .column) ∨ (name = "indicator" ∧ kind = .indicator) ∨
        (name = "constant" ∧ kind = .constant) := by
  constructor
  · intro named
    unfold Kind.ofName? at named
    split at named
    · rename_i same
      exact .inl ⟨same, (Option.some.inj named).symm⟩
    · split at named
      · rename_i same
        exact .inr (.inl ⟨same, (Option.some.inj named).symm⟩)
      · split at named
        · rename_i same
          exact .inr (.inr ⟨same, (Option.some.inj named).symm⟩)
        · cases named
  · rintro (⟨rfl, rfl⟩ | ⟨rfl, rfl⟩ | ⟨rfl, rfl⟩) <;> rfl

private theorem operand_passes {value : Value} {x : Operand} : (operand value).Passes x ↔ IsOperand value x := by
  simp only [operand, Checked.passes_andThen, object_passes, required_passes word_passes, Checked.passes_noting,
    foreign_eq_nil]
  constructor
  · rintro ⟨fields, rfl, kind, ⟨_, given, name, rfl, named⟩, only, passes⟩
    rcases kind_eq_some_iff.1 named with ⟨rfl, rfl⟩ | ⟨rfl, rfl⟩ | ⟨rfl, rfl⟩
    · obtain ⟨_, _, name_read, placed, rfl⟩ := Checked.passes_both.1 passes
      exact .column given only ((required_passes columnName_passes).1 name_read) (place_passes.1 placed)
    · obtain ⟨⟨_, _⟩, ⟨_, _⟩, computed, rest, rfl⟩ := Checked.passes_both.1 passes
      obtain ⟨_, _, name_read, placed, same⟩ := Checked.passes_both.1 rest
      cases same
      exact .indicator given only (indicator_passes.1 computed) ((required_passes columnName_passes).1 name_read)
        (place_passes.1 placed)
    · obtain ⟨_, read, rfl⟩ := Checked.passes_map.1 passes
      exact .constant given only ((required_passes constant_passes).1 read)
  · intro denotes
    cases denotes with
    | column given only named placed =>
      refine ⟨_, rfl, .column, ⟨_, given, _, rfl, rfl⟩, only, Checked.passes_both.2 ?_⟩
      exact ⟨_, _, (required_passes columnName_passes).2 named, place_passes.2 placed, rfl⟩
    | indicator given only computed named placed =>
      refine ⟨_, rfl, .indicator, ⟨_, given, _, rfl, rfl⟩, only, Checked.passes_both.2 ?_⟩
      refine ⟨(_, _), (_, _), indicator_passes.2 computed, Checked.passes_both.2 ?_, rfl⟩
      exact ⟨_, _, (required_passes columnName_passes).2 named, place_passes.2 placed, rfl⟩
    | constant given only read =>
      refine ⟨_, rfl, .constant, ⟨_, given, _, rfl, rfl⟩, only, Checked.passes_map.2 ?_⟩
      exact ⟨_, (required_passes constant_passes).2 read, rfl⟩

theorem condition_passes {value : Value} {c : Condition} : (condition value).Passes c ↔ IsCondition value c := by
  simp only [condition, Checked.passes_andThen, object_passes, Checked.passes_noting, foreign_eq_nil,
    Checked.passes_both, required_passes operand_passes, required_passes comparison_passes]
  constructor
  · rintro ⟨fields, rfl, only, left, _, left_read, ⟨comparison, right, comparison_read, right_read, rfl⟩, rfl⟩
    exact .object only left_read comparison_read right_read
  · rintro ⟨only, left, comparison, right⟩
    exact ⟨_, rfl, only, _, _, left, ⟨_, _, comparison, right, rfl⟩, rfl⟩

private theorem conditions_passes {value : Value} {cs : List Condition} :
    (conditions value).Passes cs ↔
      ∃ values, value = .array values ∧ (1 ≤ values.length ∧ values.length ≤ mostConditions) ∧
        List.Forall₂ IsCondition values cs := by
  simp only [conditions, Checked.passes_andThen, array_passes]
  refine exists_congr fun values => and_congr_right fun _ => ?_
  by_cases count : 1 ≤ values.length ∧ values.length ≤ mostConditions
  · rw [if_pos count, Checked.passes_items, and_iff_right count]
    simp only [condition_passes]
  · rw [if_neg count]
    simp [Checked.Passes, count]

theorem filter_passes {value : Value} {e : Expression} : (filter value).Passes e ↔ IsFilter value e := by
  simp only [filter, Checked.passes_andThen, object_passes, Checked.passes_noting, foreign_eq_nil, Checked.passes_both,
    required_passes logic_passes, required_passes conditions_passes]
  constructor
  · rintro ⟨fields, rfl, only, _, ⟨logic, cs, logic_read, ⟨_, given, values, rfl, count, each⟩, rfl⟩, passes⟩
    dsimp only [expression, Expression.ofConditions?] at passes
    split at passes
    · rename_i e made
      obtain rfl := Checked.passes_ok.1 passes
      split at made
      · cases made
        exact .object only logic_read given count each
      · cases made
    · exact absurd passes Checked.not_passes_failAt
  · rintro ⟨only, logic, given, count, each⟩
    refine ⟨_, rfl, only, _, ⟨_, _, logic, ⟨_, given, _, rfl, count, each⟩, rfl⟩, ?_⟩
    dsimp only [expression, Expression.ofConditions?]
    rw [dif_pos e.count_range]
    exact Checked.passes_ok.2 rfl

end Document

/-- A document is accepted exactly if the grammar gives it a meaning, and as the filter that it means. -/
theorem Expression.ofJson_eq_ok_iff (value : Value) (e : Expression) :
    Expression.ofJson value = .ok e ↔ IsFilter value e := by
  rw [Expression.ofJson, Checked.toExcept_eq_ok_iff]
  exact Document.filter_passes

end Screener.Filter
