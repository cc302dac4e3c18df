import Screener.Proofs.Scan.Outcomes
import Mathlib.Data.Prod.Lex
import Mathlib.Data.String.Basic

/-! The order of a report. Its records are sorted by keys of their own, and sorting keeps records with the same
keys as they stood. So leaving records out, or changing what is no key, can be done before sorting or after it. -/
namespace Screener.Scan
open Screener.Filter (Expression)
open Calendar (Timestamp)
variable {α : Type} {le : α → α → Bool}

structure Sorts (le : α → α → Bool) : Prop where
  trans (a b c : α) : le a b → le b c → le a c
  total (a b : α) : le a b || le b a

namespace Sorts

theorem pairwise (sorts : Sorts le) (xs : List α) : (xs.mergeSort le).Pairwise (le · ·) :=
  List.pairwise_mergeSort sorts.trans sorts.total xs

theorem eq_of_perm (sorts : Sorts le) {xs ys : List α} (perm : xs.Perm ys)
    (ties : ∀ a ∈ xs, ∀ b ∈ xs, le a b → le b a → a = b) : xs.mergeSort le = ys.mergeSort le := by
  have sorted : (xs.mergeSort le).Perm (ys.mergeSort le) :=
    (List.mergeSort_perm xs le).trans (perm.trans (List.mergeSort_perm ys le).symm)
  refine sorted.eq_of_pairwise (fun a b left right => ?_) (sorts.pairwise xs) (sorts.pairwise ys)
  exact ties a (List.mem_mergeSort.1 left) b (perm.mem_iff.2 (List.mem_mergeSort.1 right))

private theorem mergeSort_cons (sorts : Sorts le) (a : α) (xs : List α) :
    (a :: xs).mergeSort le =
      (xs.mergeSort le).filter (!le a ·) ++ a :: (xs.mergeSort le).filter (le a ·) := by
  obtain ⟨before, behind, sorted, others, apart⟩ := List.mergeSort_cons sorts.trans sorts.total a xs
  have ordered := sorts.pairwise (a :: xs)
  rw [sorted] at ordered
  have follow : ∀ b ∈ behind, le a b := (List.pairwise_cons.1 (List.pairwise_append.1 ordered).2.1).1
  rw [sorted, others, List.filter_append, List.filter_append, List.filter_eq_self.2 apart,
    List.filter_eq_self.2 follow, List.filter_eq_nil_iff.2 fun b member => by simp [follow b member],
    List.filter_eq_nil_iff.2 fun b member => by simpa using apart b member, List.append_nil, List.nil_append]

theorem filter_mergeSort (sorts : Sorts le) (p : α → Bool) (xs : List α) :
    (xs.mergeSort le).filter p = (xs.filter p).mergeSort le := by
  induction xs with
  | nil => simp
  | cons a rest ih =>
    by_cases kept : p a
    · rw [List.filter_cons_of_pos kept, sorts.mergeSort_cons, sorts.mergeSort_cons, ← ih, List.filter_append,
        List.filter_cons_of_pos kept, List.filter_comm, List.filter_comm p]
    · obtain ⟨before, behind, sorted, others, -⟩ := List.mergeSort_cons sorts.trans sorts.total a rest
      rw [List.filter_cons_of_neg kept, ← ih, sorted, others, List.filter_append, List.filter_append,
        List.filter_cons_of_neg kept]

theorem sublist_mergeSort (sorts : Sorts le) {xs ys : List α} (part : ys.Sublist xs) :
    (ys.mergeSort le).Sublist (xs.mergeSort le) := by
  induction part with
  | slnil => exact .refl _
  | @cons ys xs a _ ih =>
    obtain ⟨before, behind, sorted, others, -⟩ := List.mergeSort_cons sorts.trans sorts.total a xs
    rw [others] at ih
    rw [sorted]
    exact ih.middle a
  | @cons_cons ys xs a _ ih =>
    rw [sorts.mergeSort_cons, sorts.mergeSort_cons]
    exact (ih.filter _).append ((ih.filter _).cons_cons a)

end Sorts

theorem sorts_of_key {κ : Type} [LinearOrder κ] {key : α → κ} (by_key : ∀ a b, le a b ↔ key a ≤ key b) : Sorts le where
  trans a b c first second := (by_key a c).2 (le_trans ((by_key a b).1 first) ((by_key b c).1 second))
  total a b := by
    rw [Bool.or_eq_true, by_key, by_key]
    exact le_total (key a) (key b)

def Order.rank : Order → Timestamp → Int
  | .ascending, date => date.rank
  | .descending, date => -date.rank

/-- Matches come by date in the order asked for, on one date by symbol, and of one symbol by position. -/
def Match.key (order : Order) (m : Match) : Int ×ₗ String ×ₗ Nat :=
  toLex (order.rank m.date, toLex (m.symbol, m.index))

structure Report.InOrder (order : Order) (report : Report) : Prop where
  results : report.results.Pairwise (·.key order ≤ ·.key order)
  diagnostics : report.diagnostics.Pairwise (·.symbol ≤ ·.symbol)
  skipped : report.skipped.Pairwise (·.symbol ≤ ·.symbol)

theorem Match.notAfter_iff {order : Order} {a b : Match} :
    Match.notAfter order a b ↔ a.key order ≤ b.key order := by
  unfold Match.notAfter Match.key
  rw [Prod.Lex.toLex_le_toLex, Prod.Lex.toLex_le_toLex]
  by_cases dates : a.date = b.date
  · by_cases symbols : a.symbol = b.symbol <;> simp [dates, symbols]
  · have ranks : a.date.rank ≠ b.date.rank := fun same => dates (Timestamp.rank_injective same)
    cases order <;> simp [dates, Order.rank, Timestamp.notAfter] <;> omega

theorem Match.symbol_index_of_key {order : Order} {a b : Match} (same : a.key order = b.key order) :
    a.symbol = b.symbol ∧ a.index = b.index := by
  unfold Match.key at same
  simp only [toLex_inj, Prod.mk.injEq] at same
  exact same.2

theorem sorts_match (order : Order) : Sorts (Match.notAfter order) := sorts_of_key fun _ _ => Match.notAfter_iff

theorem sorts_diagnostic : Sorts Diagnostic.notAfter := sorts_of_key fun _ _ => decide_eq_true_iff

theorem sorts_skipped : Sorts Skipped.notAfter := sorts_of_key fun _ _ => decide_eq_true_iff

theorem inOrder_sorted (order : Order) (report : Report) : (report.sorted order).InOrder order where
  results := ((sorts_match order).pairwise _).imp Match.notAfter_iff.1
  diagnostics := (sorts_diagnostic.pairwise _).imp of_decide_eq_true
  skipped := (sorts_skipped.pairwise _).imp of_decide_eq_true

theorem Report.InOrder.adding {order : Order} {report : Report} (ordered : report.InOrder order)
    (diagnostics : List Diagnostic) : (report.adding diagnostics).InOrder order where
  results := ordered.results
  diagnostics := (sorts_diagnostic.pairwise _).imp of_decide_eq_true
  skipped := ordered.skipped

section
variable {e : Expression} {options : Options} {histories others : List History}

def Alike (histories : List History) : Prop := ∀ a ∈ histories, ∀ b ∈ histories, a.symbol = b.symbol → a = b

private theorem match_of_key (alike : Alike histories) {order : Order} {a b : Match}
    (left : a ∈ (histories.map (scanSymbol e options false)).flatMap Outcome.matches?)
    (right : b ∈ (histories.map (scanSymbol e options false)).flatMap Outcome.matches?)
    (same : a.key order = b.key order) : a = b := by
  rw [List.flatMap_map, List.mem_flatMap] at left right
  obtain ⟨history, member, left⟩ := left
  obtain ⟨history', member', right⟩ := right
  obtain ⟨symbols, positions⟩ := Match.symbol_index_of_key same
  rw [(named_scanSymbol history).results a left, (named_scanSymbol history').results b right] at symbols
  obtain rfl := alike history member history' member' symbols
  exact eq_of_index left right positions

private theorem eq_of_symbol (alike : Alike histories) {pick : Outcome → Option α} {symbol : α → String}
    (named : ∀ history, ∀ x ∈ pick (scanSymbol e options false history), symbol x = history.symbol) {a b : α}
    (left : a ∈ (histories.map (scanSymbol e options false)).filterMap pick)
    (right : b ∈ (histories.map (scanSymbol e options false)).filterMap pick) (same : symbol a = symbol b) : a = b := by
  rw [List.filterMap_map, List.mem_filterMap] at left right
  obtain ⟨history, member, left⟩ := left
  obtain ⟨history', member', right⟩ := right
  rw [named history a left, named history' b right] at same
  obtain rfl := alike history member history' member' same
  exact Option.some.inj (left.symm.trans right)

private theorem collect_of_perm (alike : Alike histories) (perm : histories.Perm others) (order : Order) :
    collect order (histories.map (scanSymbol e options false)) =
      collect order (others.map (scanSymbol e options false)) := by
  have outcomes := perm.map (scanSymbol e options false)
  simp only [collect, Report.sorted, Report.mk.injEq]
  refine ⟨?_, ?_, ?_⟩
  · refine (sorts_match order).eq_of_perm (outcomes.flatMap_right _) fun a left b right forth back => ?_
    exact match_of_key alike left right (le_antisymm (Match.notAfter_iff.1 forth) (Match.notAfter_iff.1 back))
  · refine sorts_diagnostic.eq_of_perm (outcomes.filterMap _) fun a left b right forth back => ?_
    exact eq_of_symbol alike (fun history d found => (named_scanSymbol history).diagnostics d (Option.mem_toList.2 found)) left right
      (le_antisymm (of_decide_eq_true forth) (of_decide_eq_true back))
  · refine sorts_skipped.eq_of_perm (outcomes.filterMap _) fun a left b right forth back => ?_
    exact eq_of_symbol alike (fun history s found => (named_scanSymbol history).skipped s (Option.mem_toList.2 found)) left right
      (le_antisymm (of_decide_eq_true forth) (of_decide_eq_true back))

private theorem scanSymbol_order (order : Order) :
    scanSymbol e { options with order } false = scanSymbol e options false := by
  funext history
  rw [scanSymbol_eq, scanSymbol_eq]
  rfl

end

/-- A scan that nobody stops gives a report in order. The report does not tell the order of the symbols, and asked
for in the other order of dates it has the same records. -/
theorem scan_perm (e : Expression) (options : Options) (histories : List History) :
    ∃ report, scan .quiet e options histories = .ok report ∧ report.InOrder options.order ∧
      (∀ others, histories.Perm others → Alike histories → scan .quiet e options others = .ok report) ∧
      ∀ order, ∃ turned, scan .quiet e { options with order } histories = .ok turned ∧
        turned.results.Perm report.results ∧ turned.diagnostics = report.diagnostics ∧
        turned.skipped = report.skipped := by
  refine ⟨_, scan_quiet e options histories, inOrder_sorted _ _, fun others perm alike => ?_, fun order => ?_⟩
  · rw [scan_quiet, collect_of_perm alike perm]
  · refine ⟨_, scan_quiet e { options with order } histories, ?_, ?_⟩
    · rw [scanSymbol_order]
      exact (List.mergeSort_perm _ _).trans (List.mergeSort_perm _ _).symm
    · rw [scanSymbol_order]
      exact ⟨rfl, rfl⟩

def Sample.symbols : List History := [Evaluation.Sample.history, Evaluation.Sample.history, .ofBars "B" .daily []]

theorem Sample.alike_symbols : Alike symbols := by
  simp [Alike, symbols, Evaluation.Sample.history, History.ofBars]

theorem scan_perm_sample :
    Sample.symbols.Perm Sample.symbols.reverse ∧ Alike Sample.symbols ∧
      ∃ report, scan .quiet Evaluation.Sample.filter {} Sample.symbols = .ok report ∧
        scan .quiet Evaluation.Sample.filter {} Sample.symbols.reverse = .ok report := by
  have perm : Sample.symbols.Perm Sample.symbols.reverse := (List.reverse_perm _).symm
  obtain ⟨report, scanned, -, same, -⟩ := scan_perm Evaluation.Sample.filter {} Sample.symbols
  exact ⟨perm, Sample.alike_symbols, report, scanned, same _ perm Sample.alike_symbols⟩

end Screener.Scan
