import Screener.Proofs.Evaluation.Prepare
import Screener.Proofs.Dictionary
import Screener.Proofs.Resample
import Mathlib.Data.List.Pairwise

/-! Which filters can be evaluated for a symbol, and what is reported of the others. Faults have an order of their
own: timeframes come before columns, the finest one first, and columns go by timeframe and then by name. -/
namespace Screener
open Screener.Filter (Operand Expression)

namespace Filter

/-- A column reads itself, an indicator the column that it is computed from, each in its timeframe. -/
inductive Operand.Reads : Operand → Timeframe × String → Prop
  | column {name : String} {place : Place} : Reads (.column name place) (place.timeframe, name)
  | indicator {which : Indicator} {field : Indicator.Field} {name : String} {place : Place} :
    Reads (.indicator which field name place) (place.timeframe, name)

namespace Expression

/-- A condition of the filter reads a column in a timeframe, on its left or on its right. -/
def Reads (e : Expression) (source : Timeframe × String) : Prop :=
  ∃ c ∈ e.conditions, c.left.Reads source ∨ c.right.Reads source

def ReadsIn (e : Expression) (timeframe : Timeframe) : Prop := ∃ column, e.Reads (timeframe, column)

end Expression

theorem Operand.reads_iff {operand : Operand} {source : Timeframe × String} :
    operand.Reads source ↔ operand.source? = some source := by
  constructor
  · rintro (_ | _) <;> rfl
  · intro same
    cases operand with
    | column name place =>
      obtain rfl := Option.some.inj same
      exact .column
    | indicator which field name place =>
      obtain rfl := Option.some.inj same
      exact .indicator
    | constant value => cases same

theorem Expression.mem_sources_iff {e : Expression} {source : Timeframe × String} :
    source ∈ e.sources ↔ e.Reads source := by
  simp only [sources, operands, Condition.operands, List.mem_filterMap, List.mem_flatMap, Reads, Operand.reads_iff]
  constructor
  · rintro ⟨operand, ⟨c, listed, inside⟩, same⟩
    refine ⟨c, listed, ?_⟩
    rcases List.mem_cons.1 inside with rfl | inside
    · exact .inl same
    · obtain rfl := List.mem_singleton.1 inside
      exact .inr same
  · rintro ⟨c, listed, same | same⟩
    · exact ⟨c.left, ⟨c, listed, List.mem_cons_self⟩, same⟩
    · exact ⟨c.right, ⟨c, listed, List.mem_cons_of_mem _ List.mem_cons_self⟩, same⟩

end Filter

/-- One column comes before another in the order in which they are looked for. -/
def Earlier (a b : Timeframe × String) : Prop := a.1.rank < b.1.rank ∨ a.1 = b.1 ∧ a.2 < b.2

namespace History

/-- There are bars of a timeframe, or it is coarser than the base and bars can be put together. -/
def Offers (history : History) (timeframe : Timeframe) : Prop :=
  (history.bars? timeframe).isSome ∨ history.base.rank < timeframe.rank

/-- Some bar in which a timeframe is read has the column. -/
def Carries (history : History) (source : Timeframe × String) : Prop :=
  ∃ bar ∈ history.barsFor source.1, bar.hasColumn source.2

/-- What keeps a filter from being evaluated for a symbol. A column is looked for only when every timeframe is there. -/
inductive Hinders (history : History) (e : Expression) : Evaluation.Problem → Prop
  | timeframe (timeframe : Timeframe) (read : e.ReadsIn timeframe) (beyond : ¬history.Offers timeframe)
      (finest : ∀ other, e.ReadsIn other → ¬history.Offers other → timeframe.rank ≤ other.rank) :
      Hinders history e (.unavailable history.symbol timeframe history.base)
  | column (source : Timeframe × String) (offered : ∀ timeframe, e.ReadsIn timeframe → history.Offers timeframe)
      (read : e.Reads source) (missing : ¬history.Carries source)
      (least : ∀ other, e.Reads other → ¬history.Carries other → other = source ∨ Earlier source other) :
      Hinders history e (.unresolved history.symbol source.2 source.1)

variable {history : History}

private theorem carries_of_isStandard {source : Timeframe × String} (standard : Bar.isStandard source.2) :
    history.Carries source ↔ history.barsFor source.1 ≠ [] := by
  constructor
  · rintro ⟨bar, member, -⟩
    exact List.ne_nil_of_mem member
  · intro nonempty
    obtain ⟨bar, member⟩ := List.exists_mem_of_ne_nil _ nonempty
    exact ⟨bar, member, by rw [Bar.hasColumn, standard, Bool.true_or]⟩

theorem carries_of_resampled {source : Timeframe × String} (resampled : history.bars? source.1 = none) :
    history.Carries source ↔ ∃ bar ∈ history.bars, bar.hasColumn source.2 := by
  unfold Carries barsFor
  rw [resampled, Option.getD_none, ← List.any_eq_true, ← List.any_eq_true, any_hasColumn_resample]

end History

section
variable {e : Expression} {history : History}

theorem mem_timeframes_iff {timeframe : Timeframe} : timeframe ∈ e.timeframes ↔ e.ReadsIn timeframe := by
  constructor
  · intro member
    obtain ⟨⟨_, column⟩, listed, same⟩ := List.any_eq_true.1 (List.mem_filter.1 member).2
    obtain rfl := eq_of_beq same
    exact ⟨column, Expression.mem_sources_iff.1 listed⟩
  · rintro ⟨column, reads⟩
    obtain ⟨operand, member, same⟩ := List.mem_filterMap.1 (Expression.mem_sources_iff.2 reads)
    exact Evaluation.mem_timeframes_of_source member same

private theorem pairwise_timeframes : e.timeframes.Pairwise fun a b => a.rank < b.rank :=
  List.Pairwise.filter _ (by decide)

theorem mem_columnsIn_iff {timeframe : Timeframe} {column : String} :
    column ∈ e.columnsIn timeframe ↔ e.Reads (timeframe, column) := by
  rw [Expression.columnsIn, Dictionary.mem_names_ofList, List.map_map, List.mem_map]
  constructor
  · rintro ⟨⟨_, _⟩, listed, rfl⟩
    obtain ⟨inside, same⟩ := List.mem_filter.1 listed
    obtain rfl := eq_of_beq same
    exact Expression.mem_sources_iff.1 inside
  · intro reads
    exact ⟨(timeframe, column), List.mem_filter.2 ⟨Expression.mem_sources_iff.2 reads, beq_self_eq_true _⟩, rfl⟩

theorem mem_columns_iff {source : Timeframe × String} : source ∈ e.columns ↔ e.Reads source := by
  rw [Expression.columns, List.mem_flatMap]
  constructor
  · rintro ⟨timeframe, -, listed⟩
    obtain ⟨column, inside, rfl⟩ := List.mem_map.1 listed
    exact mem_columnsIn_iff.1 inside
  · intro reads
    refine ⟨source.1, ?_, List.mem_map.2 ⟨source.2, mem_columnsIn_iff.2 reads, rfl⟩⟩
    cases source.1 <;> decide

private theorem pairwise_columns : e.columns.Pairwise Earlier := by
  refine List.pairwise_flatMap.2 ⟨fun timeframe _ => ?_, ?_⟩
  · exact List.pairwise_map.2 ((Dictionary.names_ascending _).imp fun less => .inr ⟨rfl, less⟩)
  · have finer : Timeframe.all.Pairwise fun a b => a.rank < b.rank := by decide
    refine finer.imp fun finer a a_listed b b_listed => ?_
    obtain ⟨_, -, rfl⟩ := List.mem_map.1 a_listed
    obtain ⟨_, -, rfl⟩ := List.mem_map.1 b_listed
    exact .inl finer

/-- Of elements in order, the first one to be found is the least. -/
theorem find?_eq_some_iff_least {α : Type} {before : α → α → Prop} (asymm : ∀ a b, before a b → ¬before b a)
    {xs : List α} (ordered : xs.Pairwise before) {p : α → Bool} {x : α} :
    xs.find? p = some x ↔ x ∈ xs ∧ p x ∧ ∀ y ∈ xs, p y → y = x ∨ before x y := by
  induction xs with
  | nil => simp
  | cons head rest ih =>
    obtain ⟨first, others⟩ := List.pairwise_cons.1 ordered
    rw [List.find?_cons]
    cases found : p head with
    | true =>
      refine ⟨fun same => ?_, fun ⟨member, _, least⟩ => ?_⟩
      · obtain rfl : head = x := by simpa using same
        exact ⟨List.mem_cons_self, found, fun y member _ =>
          (List.mem_cons.1 member).imp_right (first y)⟩
      · rcases least head List.mem_cons_self found with rfl | later
        · rfl
        · rcases List.mem_cons.1 member with rfl | inside
          · rfl
          · exact absurd later (asymm _ _ (first x inside))
    | false =>
      have other {y : α} (yes : p y = true) : y ∈ head :: rest ↔ y ∈ rest := by
        refine List.mem_cons.trans (or_iff_right ?_)
        rintro rfl
        rw [found] at yes
        cases yes
      refine (ih others).trans ⟨fun ⟨member, yes, least⟩ => ?_, fun ⟨member, yes, least⟩ => ?_⟩
      · exact ⟨(other yes).2 member, yes, fun y inside here => least y ((other here).1 inside) here⟩
      · exact ⟨(other yes).1 member, yes, fun y inside here => least y ((other here).2 inside) here⟩

private theorem rank_injective {a b : Timeframe} (same : a.rank = b.rank) : a = b := by
  cases a <;> cases b <;> simp_all [Timeframe.rank]

theorem offers_iff {timeframe : Timeframe} :
    history.Offers timeframe ↔ (history.bars? timeframe).isSome ∨ timeframe.derivableFrom history.base := by
  cases given : history.bars? timeframe with
  | some bars => simp [History.Offers, given]
  | none =>
    have other : history.base.rank ≠ timeframe.rank := by
      intro same
      rw [← rank_injective same, history.bars?_base] at given
      cases given
    simp only [History.Offers, given, Timeframe.derivableFrom, Option.isSome_none, Bool.false_eq_true, false_or,
      decide_eq_true_eq]
    omega

theorem not_offers_iff {timeframe : Timeframe} : ¬history.Offers timeframe ↔
    ((history.bars? timeframe).isNone && !timeframe.derivableFrom history.base) = true := by
  rw [offers_iff, not_or, Bool.and_eq_true, Bool.not_eq_true', Bool.not_eq_true, Bool.not_eq_true,
    Option.isSome_eq_false_iff]

theorem carries_iff {source : Timeframe × String} (read : e.Reads source) :
    history.Carries source ↔ ((Evaluation.Frame.gather history e).bars source.1).any (·.hasColumn source.2) := by
  rw [Evaluation.Frame.bars_gather (mem_timeframes_iff.2 ⟨source.2, read⟩), List.any_eq_true]
  rfl

private theorem earlier_asymm (a b : Timeframe × String) (first : Earlier a b) : ¬Earlier b a := by
  rintro (finer | ⟨same, less⟩)
  · rcases first with coarser | ⟨same, -⟩
    · exact Nat.lt_asymm finer coarser
    · exact Nat.ne_of_gt finer (congrArg Timeframe.rank same)
  · rcases first with coarser | ⟨-, more⟩
    · exact Nat.ne_of_gt coarser (congrArg Timeframe.rank same)
    · exact String.lt_asymm less more

theorem finest_beyond_iff {timeframe : Timeframe} :
    (e.timeframes.find? fun timeframe =>
      (history.bars? timeframe).isNone && !timeframe.derivableFrom history.base) = some timeframe ↔
    e.ReadsIn timeframe ∧ ¬history.Offers timeframe ∧
      ∀ other, e.ReadsIn other → ¬history.Offers other → timeframe.rank ≤ other.rank := by
  rw [find?_eq_some_iff_least (fun _ _ => Nat.lt_asymm) pairwise_timeframes, mem_timeframes_iff, ← not_offers_iff]
  refine and_congr_right fun _ => and_congr_right fun _ => forall_congr' fun other => ?_
  rw [mem_timeframes_iff, ← not_offers_iff]
  refine imp_congr_right fun _ => imp_congr_right fun _ => ⟨?_, fun finer => ?_⟩
  · rintro (rfl | finer)
    · exact Nat.le_refl _
    · exact Nat.le_of_lt finer
  · exact (Nat.eq_or_lt_of_le finer).imp_left fun same => rank_injective same.symm

theorem least_missing_iff {source : Timeframe × String} :
    (e.columns.find? fun (timeframe, column) =>
      !((Evaluation.Frame.gather history e).bars timeframe).any (·.hasColumn column)) = some source ↔
    e.Reads source ∧ ¬history.Carries source ∧
      ∀ other, e.Reads other → ¬history.Carries other → other = source ∨ Earlier source other := by
  have missing {source : Timeframe × String} (read : e.Reads source) :
      (!((Evaluation.Frame.gather history e).bars source.1).any (·.hasColumn source.2)) = true ↔
        ¬history.Carries source := by
    rw [carries_iff read, Bool.not_eq_true', Bool.not_eq_true]
  rw [find?_eq_some_iff_least earlier_asymm pairwise_columns, mem_columns_iff]
  refine and_congr_right fun read => and_congr (missing read) (forall_congr' fun other => ?_)
  rw [mem_columns_iff]
  exact imp_congr_right fun read => imp_congr_left (missing read)

namespace Evaluation.Frame

theorem exists_prepare_iff : (∃ frame, prepare history e = .ok frame) ↔
    (∀ timeframe, e.ReadsIn timeframe → history.Offers timeframe) ∧
      ∀ source, e.Reads source → history.Carries source := by
  simp only [prepare_eq_ok_iff, exists_eq_left, mem_timeframes_iff, mem_columns_iff, offers_iff]
  exact and_congr_right fun _ => forall_congr' fun source => imp_congr_right fun read => (carries_iff read).symm

theorem prepare_eq_error_iff {problem : Problem} :
    prepare history e = .error problem ↔ history.Hinders e problem := by
  unfold prepare
  dsimp only
  split
  · rename_i timeframe found
    obtain ⟨read, beyond, finest⟩ := finest_beyond_iff.1 found
    rw [Except.error.injEq]
    constructor
    · rintro rfl
      exact .timeframe timeframe read beyond finest
    · intro hinders
      cases hinders with
      | timeframe other other_read other_beyond other_finest =>
        have same := Nat.le_antisymm (finest other other_read other_beyond) (other_finest timeframe read beyond)
        rw [rank_injective same]
      | column source offered => exact absurd (offered timeframe read) beyond
  · rename_i every
    have offered (timeframe : Timeframe) (read : e.ReadsIn timeframe) : history.Offers timeframe := by
      by_contra beyond
      exact List.find?_eq_none.1 every timeframe (mem_timeframes_iff.2 read) (not_offers_iff.1 beyond)
    split
    · rename_i timeframe column found
      obtain ⟨read, missing, least⟩ := least_missing_iff.1 found
      rw [Except.error.injEq]
      constructor
      · rintro rfl
        exact .column (timeframe, column) offered read missing least
      · intro hinders
        cases hinders with
        | timeframe other other_read other_beyond => exact absurd (offered other other_read) other_beyond
        | column other _ other_read other_missing other_least =>
          have first := least_missing_iff.2 ⟨other_read, other_missing, other_least⟩
          rw [found, Option.some.injEq] at first
          rw [← first]
    · rename_i present
      refine ⟨fun failed => (nomatch failed), fun hinders => ?_⟩
      cases hinders with
      | timeframe other other_read other_beyond => exact absurd (offered other other_read) other_beyond
      | column other _ other_read other_missing other_least =>
        have first := least_missing_iff.2 ⟨other_read, other_missing, other_least⟩
        rw [present] at first
        cases first

/-- A filter can be evaluated exactly if each timeframe it reads is offered and each column is carried there. What is
wrong otherwise is the finest timeframe out of reach, or else the least missing column. A prepared frame reads in the
bars given, or else in the base bars put together. -/
theorem prepare_ok_or_hindered (history : History) (e : Expression) :
    ((∃ frame, prepare history e = .ok frame) ↔
      (∀ timeframe, e.ReadsIn timeframe → history.Offers timeframe) ∧
        ∀ source, e.Reads source → history.Carries source) ∧
    (∀ problem, prepare history e = .error problem ↔ history.Hinders e problem) ∧
    (∀ frame, prepare history e = .ok frame → ∀ timeframe, e.ReadsIn timeframe →
      (∀ bars, history.bars? timeframe = some bars → frame.bars timeframe = bars) ∧
        (history.bars? timeframe = none → frame.bars timeframe = resample timeframe history.bars)) ∧
    ∀ source, (Bar.isStandard source.2 → (history.Carries source ↔ history.barsFor source.1 ≠ [])) ∧
      (history.bars? source.1 = none → (history.Carries source ↔ ∃ bar ∈ history.bars, bar.hasColumn source.2)) := by
  refine ⟨exists_prepare_iff, fun problem => prepare_eq_error_iff, fun frame prepared timeframe read => ?_,
    fun source => ⟨History.carries_of_isStandard, History.carries_of_resampled⟩⟩
  obtain ⟨rfl, -, -⟩ := prepare_eq_ok_iff.1 prepared
  rw [bars_gather (mem_timeframes_iff.2 read), History.barsFor]
  constructor
  · intro bars given
    rw [given, Option.getD_some]
  · intro resampled
    rw [resampled, Option.getD_none]

end Evaluation.Frame
end
end Screener
