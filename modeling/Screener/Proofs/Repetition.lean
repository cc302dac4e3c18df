import Screener.Proofs.Pipeline
import Mathlib.Data.List.Duplicate
import Mathlib.Data.List.Perm.Basic

/-! Whether a report says a thing twice. All that comes of a symbol comes of it once, so a report repeats itself exactly
where its list of symbols does, unless the symbol that stands there twice leaves nothing. -/
namespace Screener
open Scan (Outcome Report Match Diagnostic Skipped)

/-- No row is reported twice, and no symbol twice as faulty or skipped. -/
structure Scan.Report.Distinct (report : Report) : Prop where
  results : (report.results.map fun m => (m.symbol, m.index)).Nodup
  records : (report.diagnostics.map (·.symbol) ++ report.skipped.map (·.symbol)).Nodup

theorem nodup_flatMap_iff {α β : Type} {part : α → List β} (each : ∀ a, (part a).Nodup)
    (apart : ∀ a b, a ≠ b → (part a).Disjoint (part b)) {xs : List α} :
    (xs.flatMap part).Nodup ↔ ∀ a, xs.Duplicate a → part a = [] := by
  induction xs with
  | nil => exact ⟨fun _ a twice => absurd twice (List.not_duplicate_nil a), fun _ => List.nodup_nil⟩
  | cons first rest ih =>
    -- The first part meets what follows only in a second copy of itself.
    have meets : (part first).Disjoint (rest.flatMap part) ↔ (first ∈ rest → part first = []) := by
      refine ⟨fun other again => ?_, fun blank x left right => ?_⟩
      · exact List.eq_nil_iff_forall_not_mem.2 fun x inside => other inside (List.mem_flatMap.2 ⟨first, again, inside⟩)
      · obtain ⟨b, inside, right⟩ := List.mem_flatMap.1 right
        by_cases same : first = b
        · exact List.not_mem_nil (blank (same ▸ inside) ▸ left)
        · exact apart first b same left right
    rw [List.flatMap_cons, List.nodup_append', ih, meets]
    simp only [each, true_and, List.duplicate_cons_iff]
    refine ⟨fun ⟨others, again⟩ a => ?_, fun all =>
      ⟨fun a twice => all a (.inr twice), fun again => all first (.inl ⟨rfl, again⟩)⟩⟩
    rintro (⟨rfl, inside⟩ | twice)
    · exact again inside
    · exact others a twice

theorem Scan.nodup_hits {frame : Evaluation.Frame} {e : Filter.Expression} {options : Options} :
    (hits frame e options).Nodup := List.nodup_range.filter _

theorem Scan.Accounted.nodup_indices {e : Filter.Expression} {options : Options} {history : History}
    {part : Report} (accounted : Accounted e options history part) : (part.results.map (·.index)).Nodup := by
  cases accounted with
  | empty | faulty | short => exact List.nodup_nil
  | @whole frame found _ _ _ reported =>
    have positions : found.map (·.index) = hits frame e options := by
      rw [← List.forall₂_eq_eq_eq, List.forall₂_map_left_iff]
      exact reported.imp fun m position ⟨row, _, described, _⟩ => described.index
    exact positions ▸ nodup_hits

theorem Task.Settles.nodup_indices {task : Task} {symbol : String} {part : Report}
    (settled : task.Settles symbol part) : (part.results.map (·.index)).Nodup := by
  cases settled with
  | unloaded => exact List.nodup_nil
  | loaded _ accounted => exact accounted.nodup_indices

namespace Task
variable (task : Task)

def rows (symbol : String) : List (String × Nat) := (task.outcome symbol).matches?.map fun m => (m.symbol, m.index)

def records (symbol : String) : List String :=
  (task.outcome symbol).diagnostic?.toList.map (·.symbol) ++ (task.outcome symbol).skipped?.toList.map (·.symbol)

theorem outcome_of_loaded {symbol : String} {bars : List Bar} (loaded : task.bars symbol = .ok bars) :
    task.outcome symbol = task.scan (.ofBars symbol task.base bars) := by
  rw [outcome, loaded]

private theorem nodup_rows (symbol : String) : (task.rows symbol).Nodup := by
  refine List.Nodup.of_map Prod.snd ?_
  rw [rows, List.map_map]
  exact (task.settles_outcome symbol).nodup_indices

private theorem nodup_records (symbol : String) : (task.records symbol).Nodup := by
  unfold records
  cases task.outcome symbol <;> simp [Outcome.diagnostic?, Outcome.skipped?]

private theorem fst_of_mem_rows {symbol : String} {row : String × Nat} (member : row ∈ task.rows symbol) :
    row.1 = symbol := by
  obtain ⟨m, inside, rfl⟩ := List.mem_map.1 member
  exact (task.settles_outcome symbol).named.results m inside

private theorem eq_of_mem_records {symbol name : String} (member : name ∈ task.records symbol) : name = symbol := by
  rcases List.mem_append.1 member with left | right
  · obtain ⟨d, inside, rfl⟩ := List.mem_map.1 left
    exact (task.settles_outcome symbol).named.diagnostics d inside
  · obtain ⟨s, inside, rfl⟩ := List.mem_map.1 right
    exact (task.settles_outcome symbol).named.skipped s inside

private theorem rows_report (symbols : List String) :
    ((task.report symbols).results.map fun m => (m.symbol, m.index)).Perm (symbols.flatMap task.rows) := by
  rw [results_report]
  refine ((List.mergeSort_perm _ _).map _).trans (.of_eq ?_)
  rw [List.flatMap_map, List.map_flatMap]
  rfl

private theorem records_report (symbols : List String) :
    ((task.report symbols).diagnostics.map (·.symbol) ++ (task.report symbols).skipped.map (·.symbol)).Perm
      (symbols.flatMap task.records) := by
  rw [skipped_report]
  refine (((task.diagnostics_report symbols).map _).append ((List.mergeSort_perm _ _).map _)).trans ?_
  rw [List.filterMap_eq_flatMap_toList, List.filterMap_eq_flatMap_toList, List.flatMap_map, List.flatMap_map,
    List.map_flatMap, List.map_flatMap]
  exact List.flatMap_append_perm symbols _ _

theorem nodup_results_iff {symbols : List String} :
    ((task.report symbols).results.map fun m => (m.symbol, m.index)).Nodup ↔
      ∀ symbol, symbols.Duplicate symbol → task.rows symbol = [] := by
  rw [(task.rows_report symbols).nodup_iff]
  refine nodup_flatMap_iff task.nodup_rows fun a b differ row left right => differ ?_
  rw [← task.fst_of_mem_rows left, task.fst_of_mem_rows right]

theorem nodup_recorded_iff {symbols : List String} :
    ((task.report symbols).diagnostics.map (·.symbol) ++ (task.report symbols).skipped.map (·.symbol)).Nodup ↔
      ∀ symbol, symbols.Duplicate symbol → task.records symbol = [] := by
  rw [(task.records_report symbols).nodup_iff]
  refine nodup_flatMap_iff task.nodup_records fun a b differ name left right => differ ?_
  rw [← task.eq_of_mem_records left, task.eq_of_mem_records right]

theorem silent_iff (symbol : String) :
    task.rows symbol = [] ∧ task.records symbol = [] ↔ task.outcome symbol = .matched [] := by
  have finished := task.isCancelled_outcome symbol
  unfold rows records
  generalize task.outcome symbol = outcome at finished
  cases outcome with
  | cancelled => cases finished
  | matched | skipped | failed => simp [Outcome.matches?, Outcome.diagnostic?, Outcome.skipped?]

/-- A report repeats itself exactly if something is reported of a symbol that its list repeats. -/
theorem distinct_report_iff {symbols : List String} :
    (task.report symbols).Distinct ↔ ∀ symbol, symbols.Duplicate symbol → task.outcome symbol = .matched [] := by
  simp only [← silent_iff]
  constructor
  · intro distinct symbol twice
    exact ⟨task.nodup_results_iff.1 distinct.results symbol twice, task.nodup_recorded_iff.1 distinct.records symbol twice⟩
  · intro silent
    exact ⟨task.nodup_results_iff.2 fun symbol twice => (silent symbol twice).1,
      task.nodup_recorded_iff.2 fun symbol twice => (silent symbol twice).2⟩

end Task
end Screener
