import Screener.Proofs.Decimal.Order
import Screener.Proofs.Dictionary
import Screener.Proofs.Json.Text
import Screener.Proofs.Resample
import Screener.Proofs.Store.Written
import Mathlib.Data.List.Nodup

/-! What a table gives back of the bars that were written into it. A bar agrees with the one that was written if its
further columns hold numbers that a document can hold. A bar with other numbers is taken too, but then no bar of its
symbol can be read. -/
namespace Screener
open Calendar (Timestamp)

namespace Bar

/-- The same bar, up to the sign of a zero in one of the five columns. -/
structure Agrees (a b : Bar) : Prop where
  symbol : a.symbol = b.symbol
  date : a.date = b.date
  opening : (a.opening == b.opening) = true
  high : (a.high == b.high) = true
  low : (a.low == b.low) = true
  close : (a.close == b.close) = true
  volume : (a.volume == b.volume) = true
  extra : a.extra = b.extra

def HasFiniteExtra (bar : Bar) : Prop := ∀ entry ∈ bar.extra.entries, entry.2.isFinite

/-- The finite numbers in the further columns are read back from their texts. -/
def ReadsBack (bar : Bar) : Prop :=
  ∀ entry ∈ bar.extra.entries, entry.2.isFinite → (Json.Number.double entry.2).ReadsBack

end Bar

namespace Store
variable {bar : Bar} {written : List Bar} {symbol : String} {date : Timestamp}

def kept (bar : Bar) : Bar :=
  { bar with
    opening := columnNumber bar.opening, high := columnNumber bar.high, low := columnNumber bar.low
    close := columnNumber bar.close, volume := columnNumber bar.volume }

private theorem columnNumber_beq {x : Float} (number : x.isNaN = false) : (columnNumber x == x) = true := by
  unfold columnNumber
  split
  · exact Decimal.zero_beq ‹_›
  · exact Decimal.beq_self number

private theorem agrees_kept (storable : bar.Storable) : (kept bar).Agrees bar where
  symbol := rfl
  date := rfl
  opening := columnNumber_beq (storable.numbers _ (by simp))
  high := columnNumber_beq (storable.numbers _ (by simp))
  low := columnNumber_beq (storable.numbers _ (by simp))
  close := columnNumber_beq (storable.numbers _ (by simp))
  volume := columnNumber_beq (storable.numbers _ (by simp))
  extra := rfl

def extraFields (entries : List (String × Float)) : Json.Fields := entries.map fun (name, x) => (name, .ofFloat x)

private theorem mapM_extraNumber? (entries : List (String × Float)) :
    (extraFields entries).mapM extraNumber? = if entries.all (·.2.isFinite) then some entries else none := by
  induction entries with
  | nil => rfl
  | cons entry rest ih =>
    obtain ⟨name, x⟩ := entry
    have shape : extraFields ((name, x) :: rest) = (name, .ofFloat x) :: extraFields rest := rfl
    rw [shape, List.mapM_cons, ih, List.all_cons]
    cases finite : x.isFinite with
    | false => simp [Json.Value.ofFloat, finite, extraNumber?]
    | true =>
      simp only [Json.Value.ofFloat, finite, extraNumber?, Json.Number.toFloat, Bool.true_and, if_true]
      split <;> rfl

private theorem read_extraFields (reads : bar.ReadsBack) :
    Json.read (Json.Value.object (extraFields bar.extra.entries)).compact =
      some (.object (extraFields bar.extra.entries)) := by
  refine Json.read_compact (.object fun field inside => ?_)
  obtain ⟨entry, member, rfl⟩ := List.mem_map.1 inside
  cases finite : entry.2.isFinite with
  | false => simpa [Json.Value.ofFloat, finite] using Json.Value.Legible.null
  | true => simpa [Json.Value.ofFloat, finite] using Json.Value.Legible.number (reads entry member finite)

private theorem extraOf_extraText (storable : bar.Storable) (reads : bar.ReadsBack) :
    (bar.HasFiniteExtra → extraOf bar.symbol (extraText bar.extra) = .ok bar.extra) ∧
      (¬bar.HasFiniteExtra → ∃ fault, extraOf bar.symbol (extraText bar.extra) = .error (.document fault)) := by
  cases none : bar.extra.isEmpty with
  | true =>
    have entries : bar.extra.entries = [] := List.isEmpty_iff.1 none
    have bare : bar.extra = .empty := Dictionary.ext entries
    refine ⟨fun _ => ?_, fun gap => absurd (fun entry inside => ?_) gap⟩
    · rw [bare]
      rfl
    · rw [entries] at inside
      cases inside
  | false =>
    have text : extraText bar.extra = some (Json.Value.object (extraFields bar.extra.entries)).compact := by
      rw [extraText, none]
      rfl
    have checked : checkExtra bar.symbol bar.extra = .ok () := checkExtra_eq_ok_iff.2 storable.free
    rw [text]
    simp only [extraOf, read_extraFields reads, mapM_extraNumber?]
    constructor
    · intro finite
      rw [if_pos (List.all_eq_true.2 finite)]
      simp only [Dictionary.ofList_entries, checked]
      rfl
    · intro gap
      rw [if_neg (fun finite => gap (List.all_eq_true.1 finite))]
      exact ⟨_, rfl⟩

/-- A row gives back its bar, or is unreadable since a further column holds a number that is not finite. -/
theorem barOf_rowFor (storable : bar.Storable) (reads : bar.ReadsBack) :
    (bar.HasFiniteExtra → barOf (rowFor bar) = .ok (kept bar)) ∧
      (¬bar.HasFiniteExtra → ∃ fault, barOf (rowFor bar) = .error (.document fault)) := by
  obtain ⟨whole, faulty⟩ := extraOf_extraText storable reads
  have date : Timestamp.ofText? (rowFor bar).date = some bar.date := bar.date.ofText?_text
  unfold barOf
  simp only [date]
  refine ⟨fun finite => ?_, fun gap => ?_⟩
  · have extra : extraOf (rowFor bar).symbol (rowFor bar).extra = .ok bar.extra := whole finite
    rw [extra]
    rfl
  · obtain ⟨fault, fails⟩ := faulty gap
    have extra : extraOf (rowFor bar).symbol (rowFor bar).extra = .error (.document fault) := fails
    exact ⟨fault, by rw [extra]; rfl⟩

/-- What is read of a symbol when these bars were written: that there are no bars of it; of each date the last bar, in
the order of the dates; or that a document cannot be read, since a last bar has a number that is not finite. -/
inductive Delivers (written : List Bar) (symbol : String) : Except Failure (List Bar) → Prop where
  | none : (∀ bar ∈ written, bar.symbol ≠ symbol) → Delivers written symbol (.error (.noData symbol))
  | bars {found : List Bar} : (∃ bar ∈ written, bar.symbol = symbol) →
      (∀ date bar, Bar.lastFor? written symbol date = some bar → bar.HasFiniteExtra) →
      found.Pairwise (fun a b => a.date.rank < b.date.rank) →
      (∀ date, Option.Rel Bar.Agrees (found.find? (·.date = date)) (Bar.lastFor? written symbol date)) →
      Delivers written symbol (.ok found)
  | faulty {date : Timestamp} {bar : Bar} {fault : DocumentFault} : Bar.lastFor? written symbol date = some bar →
      ¬bar.HasFiniteExtra → Delivers written symbol (.error (.document fault))

theorem mem_byDate {bar : Bar} {bars : List Bar} : bar ∈ Bar.byDate bars ↔ bar ∈ bars := List.mem_mergeSort

theorem ascending_byDate (bars : List Bar) : Ascending (Bar.byDate bars) := by
  refine List.pairwise_mergeSort (fun a b c forth further => ?_) (fun a b => ?_) bars
  · exact notAfter_trans forth further
  · rw [Bool.or_eq_true]
    exact (Int.le_total a.date.rank b.date.rank).imp decide_eq_true decide_eq_true

private theorem byDate_ascending {bars : List Bar} (distinct : bars.Pairwise fun a b => a.date ≠ b.date) :
    (Bar.byDate bars).Pairwise fun a b => a.date.rank < b.date.rank := by
  have apart : (Bar.byDate bars).Pairwise fun a b => a.date ≠ b.date :=
    (List.mergeSort_perm bars _).symm.pairwise distinct Ne.symm
  refine (List.Pairwise.and (ascending_byDate bars) apart).imp fun {a b} ⟨le, ne⟩ => ?_
  exact lt_of_le_of_ne (of_decide_eq_true le) fun same => ne (Timestamp.rank_injective same)

private theorem find?_date {bars : List Bar} (ascending : bars.Pairwise fun a b => a.date.rank < b.date.rank) :
    bars.find? (·.date = date) = some bar ↔ bar ∈ bars ∧ bar.date = date := by
  have dated {other : Bar} (found : bars.find? (·.date = date) = some other) : other.date = date := by
    have of_date := List.find?_some found
    exact of_decide_eq_true of_date
  refine ⟨fun found => ⟨List.mem_of_find?_eq_some found, dated found⟩, fun ⟨inside, same⟩ => ?_⟩
  have there : (bars.find? (·.date = date)).isSome := List.find?_isSome.2 ⟨bar, inside, decide_eq_true same⟩
  obtain ⟨other, found⟩ := Option.isSome_iff_exists.1 there
  have distinct : (bars.map (·.date.rank)).Nodup := List.pairwise_map.2 (ascending.imp ne_of_lt)
  have one : other = bar := by
    refine List.inj_on_of_nodup_map distinct (List.mem_of_find?_eq_some found) inside ?_
    rw [dated found, same]
  rw [found, one]

private theorem delivers_nothing (none : Bar.latestOf written symbol = []) :
    Delivers written symbol (.error (.noData symbol)) := by
  refine .none fun bar inside same => ?_
  obtain ⟨latest, last⟩ := Bar.exists_lastFor? inside
  obtain ⟨-, -, dated⟩ := Bar.lastFor?_eq_some last
  rw [same, ← dated] at last
  have there := Bar.mem_latestOf_iff.2 last
  rw [none] at there
  cases there

private theorem delivers_latest (storable : ∀ bar ∈ written, bar.Storable) (some_bar : Bar.latestOf written symbol ≠ [])
    (finite : ∀ bar ∈ Bar.latestOf written symbol, bar.HasFiniteExtra) :
    Delivers written symbol (.ok (Bar.byDate ((Bar.latestOf written symbol).map kept))) := by
  have ascending := byDate_ascending (List.pairwise_map.2 (Bar.latestOf_distinct written symbol) :
    ((Bar.latestOf written symbol).map kept).Pairwise fun a b => a.date ≠ b.date)
  have member {bar : Bar} {date : Timestamp} (last : Bar.lastFor? written symbol date = some bar) :
      bar ∈ Bar.latestOf written symbol ∧ bar.date = date := by
    obtain ⟨-, -, rfl⟩ := Bar.lastFor?_eq_some last
    exact ⟨Bar.mem_latestOf_iff.2 last, rfl⟩
  refine .bars ?_ (fun date bar last => finite bar (member last).1) ascending fun date => ?_
  · obtain ⟨bar, inside⟩ := List.exists_mem_of_ne_nil _ some_bar
    obtain ⟨there, same, -⟩ := Bar.lastFor?_eq_some (Bar.mem_latestOf_iff.1 inside)
    exact ⟨bar, there, same⟩
  · cases last : Bar.lastFor? written symbol date with
    | some bar =>
      obtain ⟨inside, dated⟩ := member last
      rw [(find?_date ascending).2 ⟨mem_byDate.2 (List.mem_map_of_mem inside), dated⟩]
      exact .some (agrees_kept (storable bar (Bar.lastFor?_eq_some last).1))
    | none =>
      cases found : (Bar.byDate ((Bar.latestOf written symbol).map kept)).find? (·.date = date) with
      | none => exact .none
      | some other =>
        obtain ⟨inside, dated⟩ := (find?_date ascending).1 found
        obtain ⟨bar, there, rfl⟩ := List.mem_map.1 (mem_byDate.1 inside)
        have dated : bar.date = date := dated
        rw [← dated, Bar.mem_latestOf_iff.1 there] at last
        cases last

private theorem exists_faulty (storable : ∀ bar ∈ written, bar.Storable) (reads : ∀ bar ∈ written, bar.ReadsBack)
    (inside : bar ∈ Bar.latestOf written symbol) (gap : ¬bar.HasFiniteExtra) :
    ∃ fault, ((Bar.latestOf written symbol).map rowFor).mapM barOf = .error fault ∧
      Delivers written symbol (.error fault) := by
  have each {bar : Bar} (inside : bar ∈ Bar.latestOf written symbol) :=
    have there := (Bar.lastFor?_eq_some (Bar.mem_latestOf_iff.1 inside)).1
    barOf_rowFor (storable bar there) (reads bar there)
  cases read : ((Bar.latestOf written symbol).map rowFor).mapM barOf with
  | ok found =>
    obtain ⟨_, -, readable⟩ := exists_right (mapM_eq_ok_iff.1 read) (List.mem_map_of_mem inside)
    obtain ⟨fault, fails⟩ := (each inside).2 gap
    rw [fails] at readable
    cases readable
  | error fault =>
    obtain ⟨_, row, fails⟩ := exists_of_mapM_eq_error read
    obtain ⟨other, there, rfl⟩ := List.mem_map.1 row
    by_cases whole : other.HasFiniteExtra
    · rw [(each there).1 whole] at fails
      cases fails
    · obtain ⟨_, same⟩ := (each there).2 whole
      obtain rfl := Except.error.inj (same.symm.trans fails)
      exact ⟨_, rfl, .faulty (Bar.mem_latestOf_iff.1 there) whole⟩

private theorem bars_after (batches : List (List Bar)) (symbol : String) :
    (blank.prepared.after batches).bars symbol = (do
      let bars ← ((Bar.latestOf (blank.prepared.written batches) symbol).map rowFor).mapM barOf
      if bars.isEmpty then throw (.noData symbol) else return Bar.byDate bars) := by
  have ready : (blank.prepared.after batches).ready = true := ready_after rfl batches
  have rows : (blank.prepared.after batches).rowsOf symbol =
      (Bar.latestOf (blank.prepared.written batches) symbol).map rowFor := by
    rw [rowsOf, rows_after, List.filter_map]
    rfl
  rw [bars, access, if_pos ready, rows]

private theorem delivers_after {batches : List (List Bar)}
    (reads : ∀ bar ∈ blank.prepared.written batches, bar.ReadsBack) (symbol : String) :
    Delivers (blank.prepared.written batches) symbol ((blank.prepared.after batches).bars symbol) := by
  have ready : blank.prepared.ready := rfl
  have storable := (after_eq_putAll ready batches).1
  rw [bars_after]
  generalize blank.prepared.written batches = written at reads storable
  -- The rows are read one after the other and the first that fails ends it: it matters whether there is such a row.
  by_cases finite : ∀ bar ∈ Bar.latestOf written symbol, bar.HasFiniteExtra
  · have read : ((Bar.latestOf written symbol).map rowFor).mapM barOf =
        .ok ((Bar.latestOf written symbol).map kept) := by
      refine mapM_eq_ok_iff.2 (List.forall₂_map_left_iff.2 (List.forall₂_map_right_iff.2 (List.forall₂_same.2 ?_)))
      intro bar inside
      have there := (Bar.lastFor?_eq_some (Bar.mem_latestOf_iff.1 inside)).1
      exact (barOf_rowFor (storable bar there) (reads bar there)).1 (finite bar inside)
    rw [read]
    cases held : Bar.latestOf written symbol with
    | nil => exact delivers_nothing held
    | cons first others =>
      have given := delivers_latest storable (by rw [held]; exact List.cons_ne_nil _ _) finite
      rw [held] at given
      exact given
  · simp only [not_forall] at finite
    obtain ⟨bar, inside, gap⟩ := finite
    obtain ⟨fault, read, delivered⟩ := exists_faulty storable reads inside gap
    rw [read]
    exact delivered

/-- Of a symbol that was written, a table gives back the last bar of each date, in the order of the dates, unless one of
them has a further column with a number that is not finite; then it gives back none of them. A batch that is refused
changes nothing about that. -/
theorem bars_as_written {batches : List (List Bar)}
    (reads : ∀ bar ∈ blank.prepared.written batches, bar.ReadsBack) :
    (∀ symbol, Delivers (blank.prepared.written batches) symbol ((blank.prepared.after batches).bars symbol)) ∧
      ∀ earlier batch later, batches = earlier ++ batch :: later →
        ((blank.prepared.after earlier).insert batch).isOk = false →
          ∀ symbol, (blank.prepared.after batches).bars symbol =
            (blank.prepared.after (earlier ++ later)).bars symbol := by
  refine ⟨delivers_after reads, ?_⟩
  rintro earlier batch later rfl refused symbol
  rw [after, after, List.foldl_append, List.foldl_append, List.foldl_cons]
  exact congrArg (fun store => (later.foldl take store).bars symbol) (take_of_refused refused)

namespace Sample

def carrying (column : String) (x : Float) : Bar :=
  ⟨"A", ⟨⟨2023, 5, 4, by decide, by decide, by decide⟩, .midnight⟩, 1, 2, 0.5, 1.5, 10, .ofList [(column, x)]⟩

theorem readsBack_carrying (column : String) : (carrying column 1.5).ReadsBack := by
  have chars : (Json.Number.double 1.5).chars = ['1', '.', '5'] :=
    (by decide +kernel : (Decimal.Form.document.render 1.5).toList = ['1', '.', '5'])
  have read : Json.number ['1', '.', '5'] = some (.double (Json.dividedDown 4 (Float.ofNat 15) 1), []) := rfl
  have value : Json.dividedDown 4 (Float.ofNat 15) 1 = 1.5 := by decide +kernel
  intro entry inside _
  obtain rfl := List.mem_singleton.1 inside
  rw [Json.Number.ReadsBack, chars, read, value]

theorem storable_carrying {column : String} {x : Float} :
    (carrying column x).Storable ↔ Bar.isTaken column = false := by
  refine ⟨fun storable => storable.free column List.mem_cons_self, fun free => ⟨fun name inside => ?_, ?_⟩⟩
  · obtain rfl := List.mem_singleton.1 inside
    exact free
  · exact (by decide : ∀ y ∈ [(1 : Float), 2, 0.5, 1.5, 10], y.isNaN = false)

theorem insert_carrying {column : String} (free : Bar.isTaken column = false) (x : Float) :
    blank.prepared.insert [carrying column x] = .ok (blank.prepared.putAll [carrying column x]) := by
  have ready : blank.prepared.ready := rfl
  exact (insert_eq_ok_iff ready).2 ⟨List.forall_mem_singleton.2 (storable_carrying.2 free), rfl⟩

theorem bars_carrying (column : String) (x : Float) :
    (blank.prepared.putAll [carrying column x]).bars "A" =
      (barOf (rowFor (carrying column x))).map fun bar => [bar] := by
  have read : (blank.prepared.putAll [carrying column x]).bars "A" = (do
      let bars ← [rowFor (carrying column x)].mapM barOf
      if bars.isEmpty then throw (.noData "A") else return Bar.byDate bars) := rfl
  rw [read, List.mapM_cons]
  cases barOf (rowFor (carrying column x)) with
  | error fault => rfl
  | ok bar => exact congrArg Except.ok (List.mergeSort_singleton bar)

end Sample

open Store.Sample (carrying readsBack_carrying storable_carrying)

theorem bars_as_written_sample :
    let batches := [[carrying "x" 1.5], [carrying "close" 1.5], [carrying "y" 1.5]]
    (∀ bar ∈ blank.prepared.written batches, bar.ReadsBack) ∧
      ((blank.prepared.after [[carrying "x" 1.5]]).insert [carrying "close" 1.5]).isOk = false ∧
      Delivers (blank.prepared.written batches) "A" ((blank.prepared.after batches).bars "A") ∧
      (blank.prepared.after batches).bars "A" =
        (blank.prepared.after [[carrying "x" 1.5], [carrying "y" 1.5]]).bars "A" := by
  intro batches
  have ready : (blank.prepared.after [[carrying "x" 1.5]]).ready = true := ready_after rfl _
  have refused : ((blank.prepared.after [[carrying "x" 1.5]]).insert [carrying "close" 1.5]).isOk = false := by
    refine Bool.eq_false_iff.2 fun done => ?_
    have storable := (isOk_insert_iff ready).1 done _ List.mem_cons_self
    exact absurd (storable_carrying.1 storable) (by decide)
  have reads : ∀ bar ∈ blank.prepared.written batches, bar.ReadsBack := by
    intro bar inside
    obtain ⟨batch, listed, inside⟩ := mem_of_written inside
    obtain ⟨column, rfl⟩ : ∃ column, batch = [carrying column 1.5] := by
      rcases List.mem_cons.1 listed with rfl | listed
      · exact ⟨_, rfl⟩
      · rcases List.mem_cons.1 listed with rfl | listed
        · exact ⟨_, rfl⟩
        · exact ⟨_, List.mem_singleton.1 listed⟩
    obtain rfl := List.mem_singleton.1 inside
    exact readsBack_carrying column
  obtain ⟨delivered, unchanged⟩ := bars_as_written reads
  exact ⟨reads, refused, delivered "A", unchanged [[carrying "x" 1.5]] _ _ rfl refused "A"⟩

/-- A number that is not finite is taken, and then the bar cannot be read. -/
theorem exists_unreadable :
    ∃ store fault, blank.prepared.insert [carrying "x" (0.0 / 0.0)] = .ok store ∧
      store.bars "A" = .error (.document fault) := by
  have storable : (carrying "x" (0.0 / 0.0)).Storable := storable_carrying.2 (by decide)
  have gap : (0.0 / 0.0 : Float).isFinite = false := by decide
  have infinite : ¬(carrying "x" (0.0 / 0.0)).HasFiniteExtra := by
    intro finite
    have counted := finite _ List.mem_cons_self
    rw [gap] at counted
    cases counted
  have reads : (carrying "x" (0.0 / 0.0)).ReadsBack := by
    intro entry inside counted
    obtain rfl := List.mem_singleton.1 inside
    rw [gap] at counted
    cases counted
  obtain ⟨fault, fails⟩ := (barOf_rowFor storable reads).2 infinite
  refine ⟨_, fault, Sample.insert_carrying (by decide) _, ?_⟩
  rw [Sample.bars_carrying, fails]
  rfl

end Store
end Screener
