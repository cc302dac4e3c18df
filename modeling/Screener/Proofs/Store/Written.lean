import Screener.Proofs.Calendar.Text
import Screener.Proofs.Except
import Screener.Store.Basic
import Mathlib.Data.List.Induction

/-! What a table holds of the bars that were written into it. Bars are written in batches, each as a whole or not at
all; after any batches a table holds the last bar that was written for each symbol and date. -/
namespace Screener
open Calendar (Timestamp)

namespace Bar

/-- A table takes the bar: no further column has a name that is taken, and there is a number in each of the five. -/
structure Storable (bar : Bar) : Prop where
  free : ∀ name ∈ bar.extra.names, isTaken name = false
  numbers : ∀ x ∈ [bar.opening, bar.high, bar.low, bar.close, bar.volume], x.isNaN = false

def isFor (bar : Bar) (symbol : String) (date : Timestamp) : Bool := bar.symbol = symbol ∧ bar.date = date

/-- The last of several bars for a symbol and a date. -/
def lastFor? (bars : List Bar) (symbol : String) (date : Timestamp) : Option Bar :=
  bars.reverse.find? (·.isFor symbol date)

end Bar

namespace Store

def take (store : Store) (batch : List Bar) : Store := (store.insert batch).toOption.getD store

def after (store : Store) (batches : List (List Bar)) : Store := batches.foldl take store

/-- The bars of those of the batches that are not refused, in the order in which they are written. -/
def written (store : Store) : List (List Bar) → List Bar
  | [] => []
  | batch :: rest => (if (store.insert batch).isOk then batch else []) ++ (store.take batch).written rest

def rowFor (bar : Bar) : Row :=
  ⟨bar.symbol, bar.date.text, columnNumber bar.opening, columnNumber bar.high, columnNumber bar.low,
    columnNumber bar.close, columnNumber bar.volume, extraText bar.extra⟩

def putAll (store : Store) (bars : List Bar) : Store := bars.foldl (fun store bar => store.put (rowFor bar)) store

variable {store : Store} {bar : Bar} {bars : List Bar}

theorem checkExtra_eq_ok_iff {symbol : String} {extra : Dictionary Float} :
    checkExtra symbol extra = .ok () ↔ ∀ name ∈ extra.names, Bar.isTaken name = false := by
  unfold checkExtra
  cases found : extra.names.find? Bar.isTaken with
  | none => simpa using found
  | some name =>
    refine iff_of_false (fun failed => nomatch failed) fun free => ?_
    have taken := List.find?_some found
    rw [free name (List.mem_of_find?_eq_some found)] at taken
    cases taken

theorem rowOf_eq_ok_iff {row : Row} :
    rowOf bar = .ok row ↔
      (∀ x ∈ [bar.opening, bar.high, bar.low, bar.close, bar.volume], x.isNaN = false) ∧ rowFor bar = row := by
  unfold rowOf
  split
  · rename_i gap
    obtain ⟨x, inside, is_gap⟩ := List.any_eq_true.1 gap
    refine iff_of_false (fun failed => nomatch failed) fun ⟨numbers, _⟩ => ?_
    rw [numbers x inside] at is_gap
    cases is_gap
  · rename_i numbers
    refine (Except.ok.injEq _ _).to_iff.trans (and_iff_right fun x inside => ?_).symm
    exact Bool.eq_false_iff.2 fun gap => numbers (List.any_eq_true.2 ⟨x, inside, gap⟩)

theorem insertBar_eq_ok_iff (ready : store.ready) {next : Store} :
    store.insertBar bar = .ok next ↔ bar.Storable ∧ store.put (rowFor bar) = next := by
  have open_store : store.access (.ok ()) = .ok () := if_pos ready
  unfold insertBar
  rw [bind_eq_ok_iff, open_store]
  constructor
  · rintro ⟨_, checked, later⟩
    obtain ⟨_, -, later⟩ := bind_eq_ok_iff.1 later
    obtain ⟨row, made, same⟩ := bind_eq_ok_iff.1 later
    obtain ⟨numbers, rfl⟩ := rowOf_eq_ok_iff.1 made
    exact ⟨⟨checkExtra_eq_ok_iff.1 checked, numbers⟩, Except.ok.inj same⟩
  · rintro ⟨storable, rfl⟩
    refine ⟨(), checkExtra_eq_ok_iff.2 storable.free, bind_eq_ok_iff.2 ⟨(), rfl, ?_⟩⟩
    exact bind_eq_ok_iff.2 ⟨rowFor bar, rowOf_eq_ok_iff.2 ⟨storable.numbers, rfl⟩, rfl⟩

theorem insert_eq_ok_iff (ready : store.ready) {next : Store} :
    store.insert bars = .ok next ↔ (∀ bar ∈ bars, bar.Storable) ∧ store.putAll bars = next := by
  unfold insert
  induction bars generalizing store with
  | nil => exact (Except.ok.injEq _ _).to_iff.trans (and_iff_right fun _ none => nomatch none).symm
  | cons bar rest ih =>
    have further := @ih (store.put (rowFor bar)) ready
    rw [List.foldlM_cons, bind_eq_ok_iff, List.forall_mem_cons]
    constructor
    · rintro ⟨_, first, others⟩
      obtain ⟨storable, rfl⟩ := (insertBar_eq_ok_iff ready).1 first
      obtain ⟨all, same⟩ := further.1 others
      exact ⟨⟨storable, all⟩, same⟩
    · rintro ⟨⟨storable, all⟩, same⟩
      exact ⟨_, (insertBar_eq_ok_iff ready).2 ⟨storable, rfl⟩, further.2 ⟨all, same⟩⟩

theorem isOk_insert_iff (ready : store.ready) : (store.insert bars).isOk ↔ ∀ bar ∈ bars, bar.Storable := by
  cases done : store.insert bars with
  | error fault =>
    refine iff_of_false (fun failed => nomatch failed) fun storable => ?_
    rw [(insert_eq_ok_iff ready).2 ⟨storable, rfl⟩] at done
    cases done
  | ok next => exact iff_of_true rfl ((insert_eq_ok_iff ready).1 done).1

@[simp] theorem ready_putAll : (store.putAll bars).ready = store.ready := by
  unfold putAll
  induction bars generalizing store with
  | nil => rfl
  | cons bar rest ih => exact ih

private theorem putAll_append (more : List Bar) : store.putAll (bars ++ more) = (store.putAll bars).putAll more :=
  List.foldl_append

theorem take_of_refused {batch : List Bar} (refused : (store.insert batch).isOk = false) :
    store.take batch = store := by
  unfold take
  cases done : store.insert batch with
  | error fault => rfl
  | ok next =>
    rw [done] at refused
    cases refused

private theorem take_of_done (ready : store.ready) {batch : List Bar} (done : (store.insert batch).isOk) :
    store.take batch = store.putAll batch := by
  have written := (insert_eq_ok_iff ready).2 ⟨(isOk_insert_iff ready).1 done, rfl⟩
  rw [take, written]
  rfl

theorem after_eq_putAll (ready : store.ready) (batches : List (List Bar)) :
    (∀ bar ∈ store.written batches, bar.Storable) ∧ store.after batches = store.putAll (store.written batches) := by
  unfold after
  induction batches generalizing store with
  | nil => exact ⟨fun _ none => (nomatch none), rfl⟩
  | cons batch rest ih =>
    rw [List.foldl_cons, written]
    by_cases done : (store.insert batch).isOk
    · rw [if_pos done, take_of_done ready done, putAll_append]
      obtain ⟨all, same⟩ := @ih (store.putAll batch) (by rw [ready_putAll, ready])
      exact ⟨List.forall_mem_append.2 ⟨(isOk_insert_iff ready).1 done, all⟩, same⟩
    · rw [if_neg done, take_of_refused (Bool.eq_false_iff.2 done), List.nil_append]
      exact ih ready

theorem mem_of_written {batches : List (List Bar)} (member : bar ∈ store.written batches) :
    ∃ batch ∈ batches, bar ∈ batch := by
  induction batches generalizing store with
  | nil => cases member
  | cons batch rest ih =>
    rw [written, List.mem_append] at member
    rcases member with first | later
    · split at first
      · exact ⟨batch, List.mem_cons_self, first⟩
      · cases first
    · obtain ⟨other, listed, inside⟩ := ih later
      exact ⟨other, List.mem_cons_of_mem _ listed, inside⟩

theorem ready_after (ready : store.ready) (batches : List (List Bar)) : (store.after batches).ready := by
  rw [(after_eq_putAll ready batches).2, ready_putAll, ready]

end Store

namespace Bar

theorem isFor_iff {bar : Bar} {symbol : String} {date : Timestamp} :
    bar.isFor symbol date ↔ bar.symbol = symbol ∧ bar.date = date := decide_eq_true_iff

private theorem isFor_self (bar : Bar) : bar.isFor bar.symbol bar.date := isFor_iff.2 ⟨rfl, rfl⟩

def latest (bars : List Bar) : List Bar :=
  bars.foldl (fun held bar => held.filter (!·.isFor bar.symbol bar.date) ++ [bar]) []

variable {bar : Bar} {bars : List Bar} {symbol : String} {date : Timestamp}

private theorem latest_append (bars : List Bar) (bar : Bar) :
    latest (bars ++ [bar]) = (latest bars).filter (!·.isFor bar.symbol bar.date) ++ [bar] := by
  rw [latest, List.foldl_append]
  rfl

private theorem lastFor?_append (bars : List Bar) (bar : Bar) (symbol : String) (date : Timestamp) :
    lastFor? (bars ++ [bar]) symbol date = if bar.isFor symbol date then some bar else lastFor? bars symbol date := by
  rw [lastFor?, List.reverse_append, List.reverse_singleton, List.singleton_append, List.find?_cons]
  split <;> simp_all [lastFor?]

theorem lastFor?_eq_some (last : lastFor? bars symbol date = some bar) :
    bar ∈ bars ∧ bar.symbol = symbol ∧ bar.date = date := by
  rw [lastFor?] at last
  have is_for := List.find?_some last
  exact ⟨List.mem_reverse.1 (List.mem_of_find?_eq_some last), isFor_iff.1 is_for⟩

theorem exists_lastFor? (member : bar ∈ bars) : ∃ last, lastFor? bars bar.symbol bar.date = some last :=
  Option.isSome_iff_exists.1 (List.find?_isSome.2 ⟨bar, List.mem_reverse.2 member, bar.isFor_self⟩)

theorem mem_latest_iff : bar ∈ latest bars ↔ lastFor? bars bar.symbol bar.date = some bar := by
  induction bars using List.reverseRecOn with
  | nil => exact iff_of_false (fun none => nomatch none) (fun none => nomatch none)
  | append_singleton bars later ih =>
    rw [latest_append, List.mem_append, List.mem_filter, List.mem_singleton, lastFor?_append]
    by_cases same : later.isFor bar.symbol bar.date
    · have slot := isFor_iff.1 same
      have other : bar.isFor later.symbol later.date := isFor_iff.2 ⟨slot.1.symm, slot.2.symm⟩
      simp [same, other, eq_comm]
    · have other : ¬bar.isFor later.symbol later.date :=
        fun is_for => same (isFor_iff.2 ⟨(isFor_iff.1 is_for).1.symm, (isFor_iff.1 is_for).2.symm⟩)
      have differs : bar ≠ later := by
        rintro rfl
        exact same bar.isFor_self
      simp [same, other, differs, ih]

def latestOf (bars : List Bar) (symbol : String) : List Bar := (latest bars).filter (·.symbol == symbol)

theorem mem_latestOf_iff : bar ∈ latestOf bars symbol ↔ lastFor? bars symbol bar.date = some bar := by
  rw [latestOf, List.mem_filter, mem_latest_iff, beq_iff_eq]
  constructor
  · rintro ⟨last, rfl⟩
    exact last
  · intro last
    obtain ⟨-, rfl, -⟩ := lastFor?_eq_some last
    exact ⟨last, rfl⟩

private theorem latest_distinct (bars : List Bar) : (latest bars).Pairwise fun a b => ¬a.isFor b.symbol b.date := by
  induction bars using List.reverseRecOn with
  | nil => exact .nil
  | append_singleton bars later ih =>
    rw [latest_append]
    refine List.pairwise_append.2 ⟨ih.filter _, List.pairwise_singleton _ _, fun held inside other same => ?_⟩
    obtain rfl := List.mem_singleton.1 same
    simpa using (List.mem_filter.1 inside).2

theorem latestOf_distinct (bars : List Bar) (symbol : String) :
    (latestOf bars symbol).Pairwise fun a b => a.date ≠ b.date := by
  refine ((latest_distinct bars).filter _).imp_of_mem fun {a b} inside other distinct same => distinct ?_
  have left := eq_of_beq (List.mem_filter.1 inside).2
  have right := eq_of_beq (List.mem_filter.1 other).2
  exact isFor_iff.2 ⟨left.trans right.symm, same⟩

end Bar

namespace Store
variable {store : Store} {bar : Bar} {bars : List Bar}

theorem sameKey_rowFor (a b : Bar) : sameKey (rowFor a) (rowFor b) = b.isFor a.symbol a.date := by
  -- A key has the text of the date, which only that date has.
  have keys : sameKey (rowFor a) (rowFor b) = (a.symbol == b.symbol && a.date.text == b.date.text) := rfl
  rw [keys, Bool.eq_iff_iff, Bar.isFor_iff, Bool.and_eq_true, beq_iff_eq, beq_iff_eq, Calendar.Timestamp.text_inj,
    eq_comm (a := a.symbol), eq_comm (a := a.date)]

theorem rows_putAll {held : List Bar} (rows : store.rows = held.map rowFor) :
    (store.putAll bars).rows =
      (bars.foldl (fun held bar => held.filter (!·.isFor bar.symbol bar.date) ++ [bar]) held).map rowFor := by
  -- By induction on the bars, for any that are held already: both sides drop what has the key and put the new one last.
  unfold putAll
  induction bars generalizing store held with
  | nil => exact rows
  | cons bar rest ih =>
    refine ih ?_
    have kept : (fun row => !sameKey (rowFor bar) row) ∘ rowFor = fun other => !other.isFor bar.symbol bar.date :=
      funext fun other => congrArg not (sameKey_rowFor bar other)
    have put_rows : (store.put (rowFor bar)).rows = store.rows.filter (!sameKey (rowFor bar) ·) ++ [rowFor bar] := rfl
    rw [put_rows, rows, List.filter_map, kept, List.map_append, List.map_singleton]

/-- After batches into an empty table it holds the last of the bars written for each symbol and date. -/
theorem rows_after (batches : List (List Bar)) :
    (blank.prepared.after batches).rows = (Bar.latest (blank.prepared.written batches)).map rowFor := by
  rw [(after_eq_putAll rfl batches).2]
  exact rows_putAll rfl

end Store
end Screener
