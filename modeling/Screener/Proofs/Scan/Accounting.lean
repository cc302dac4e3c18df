import Screener.Scan.Run
import Screener.Proofs.Evaluation.Calls

/-! What a scan reports. Every symbol is accounted for once: by its matches, by a diagnostic or as skipped; and
though the matches of a symbol share one memo, they are those that each row gives by itself. -/
namespace Screener.Scan
open Screener.Filter (Expression)
open Evaluation (Frame Problem matchedBy explainBy)

/-- The positions with the whole window behind them at which the options admit the row and the filter holds, each
evaluated on a new context. -/
def hits (frame : Frame) (e : Expression) (options : Options) : List Nat :=
  (List.range frame.history.bars.length).filter fun position =>
    decide (e.window - 1 ≤ position) &&
      (frame.history.bars[position]?.any (fun row => options.range.all (·.contains row.date)) &&
        (frame.matched e position .empty).1)

/-- A match has the numbers of its row and those further columns that are not named like a key of its own. -/
structure Match.Describes (m : Match) (symbol : String) (position : Nat) (row : Bar) : Prop where
  symbol : m.symbol = symbol
  index : m.index = position
  date : m.date = row.date
  prices : m.opening = row.opening ∧ m.high = row.high ∧ m.low = row.low ∧ m.close = row.close
  volume : m.volume = row.volume
  extra (name : String) :
    m.extra.get? name = if Bar.isStandard name || Bar.isReserved name then none else row.extra.get? name

def Reported (frame : Frame) (e : Expression) (options : Options) (m : Match) (position : Nat) : Prop :=
  ∃ row, frame.history.bars[position]? = some row ∧ m.Describes frame.history.symbol position row ∧
    m.verdict = if options.explain then some (frame.explain e position .empty).1 else none

/-- What a symbol has to add to a report: its matches, or one diagnostic, or one record that it was skipped. -/
inductive Accounted (e : Expression) (options : Options) (history : History) : Report → Prop
  | empty : history.bars = [] → Accounted e options history ⟨[], [], [⟨history.symbol, 0, e.window⟩]⟩
  | faulty {problem : Problem} : history.bars ≠ [] → Frame.prepare history e = .error problem →
    Accounted e options history ⟨[], [⟨history.symbol, problem⟩], []⟩
  | short {frame : Frame} : history.bars ≠ [] → Frame.prepare history e = .ok frame →
    history.bars.length < e.window →
    Accounted e options history ⟨[], [], [⟨history.symbol, history.bars.length, e.window⟩]⟩
  | whole {frame : Frame} {found : List Match} : history.bars ≠ [] → Frame.prepare history e = .ok frame →
    e.window ≤ history.bars.length → List.Forall₂ (Reported frame e options) found (hits frame e options) →
    Accounted e options history ⟨found, [], []⟩

/-- All that a report has to hold together are these parts. -/
structure Report.MadeOf (report : Report) (parts : List Report) : Prop where
  results : report.results.Perm (parts.flatMap Report.results)
  diagnostics : report.diagnostics.Perm (parts.flatMap Report.diagnostics)
  skipped : report.skipped.Perm (parts.flatMap Report.skipped)

def Outcome.part (outcome : Outcome) : Report := ⟨outcome.matches?, outcome.diagnostic?.toList, outcome.skipped?.toList⟩

theorem describes_ofBar (symbol : String) (position : Nat) (row : Bar) (verdict : Option Evaluation.Verdict) :
    (Match.ofBar symbol position row verdict).Describes symbol position row where
  symbol := rfl
  index := rfl
  date := rfl
  prices := ⟨rfl, rfl, rfl, rfl⟩
  volume := rfl
  extra name := by
    simp only [Match.ofBar, Dictionary.get?_restrict, Bar.isTaken]
    cases Bar.isStandard name || Bar.isReserved name <;> rfl

section
variable {frame : Frame} {e : Expression} {options : Options}

def holdsAt (frame : Frame) (e : Expression) (options : Options) (row : Bar × Nat) : Bool :=
  options.admits row.1.date && matchedBy (frame.read? frame.series row.2) e

def matchOf (frame : Frame) (e : Expression) (options : Options) (row : Bar × Nat) : Match :=
  .ofBar frame.history.symbol row.2 row.1
    (if options.explain then some (explainBy (frame.read? frame.series row.2) e) else none)

private theorem matchAt_gives (row : Bar) (position : Nat) :
    Frame.Gives frame frame.series (matchAt frame e options.explain row position)
      (if matchedBy (frame.read? frame.series position) e then some (matchOf frame e options (row, position))
        else none) := by
  unfold matchAt matchOf
  cases options.explain with
  | true => exact (Frame.explain_gives e position).bind (.pure _)
  | false => exact (Frame.matched_gives e position).bind (.pure _)

theorem matchRows_gives (rows : List (Bar × Nat)) :
    Frame.Gives frame frame.series (matchRows frame e options rows)
      ((rows.filter (holdsAt frame e options)).map (matchOf frame e options)) := by
  induction rows with
  | nil => exact .pure _
  | cons row rest ih =>
    obtain ⟨bar, position⟩ := row
    rw [matchRows, List.filter_cons]
    split
    · rename_i admitted
      have read : holdsAt frame e options (bar, position) = matchedBy (frame.read? frame.series position) e := by
        simp only [holdsAt, admitted, Bool.true_and]
      refine (matchAt_gives bar position).bind ?_
      rw [read]
      cases matchedBy (frame.read? frame.series position) e with
      | false => exact ih.bind (.pure _)
      | true => exact ih.bind (.pure _)
    · rename_i refused
      simp only [holdsAt, refused, Bool.false_and, Bool.false_eq_true, if_false]
      exact ih

private theorem matched_fresh (position : Nat) :
    (frame.matched e position .empty).1 = matchedBy (frame.read? frame.series position) e :=
  (Frame.matched_gives e position .empty frame.shown_empty).1

private theorem explain_fresh (position : Nat) :
    (frame.explain e position .empty).1 = explainBy (frame.read? frame.series position) e :=
  (Frame.explain_gives e position .empty frame.shown_empty).1

private theorem filter_range_from (start n : Nat) (p : Nat → Bool) :
    (List.range n).filter (fun i => decide (start ≤ i) && p i) = ((List.range n).drop start).filter p := by
  by_cases inside : start ≤ n
  · obtain ⟨m, rfl⟩ := Nat.exists_eq_add_of_le inside
    have early : (List.range start).filter (fun i => decide (start ≤ i) && p i) = [] :=
      List.filter_eq_nil_iff.2 fun i member => by
        have before : i < start := List.mem_range.1 member
        simp [Nat.not_le.2 before]
    rw [List.range_add, List.filter_append, early, List.nil_append, List.drop_left' List.length_range]
    refine List.filter_congr fun i member => ?_
    obtain ⟨j, -, rfl⟩ := List.mem_map.1 member
    simp
  · have none_left : (List.range n).drop start = [] := List.drop_eq_nil_of_le (by simp; omega)
    rw [none_left]
    refine List.filter_eq_nil_iff.2 fun i member => ?_
    have before : i < n := List.mem_range.1 member
    simp
    omega

private theorem hits_eq :
    hits frame e options =
      ((frame.history.bars.zipIdx.drop (e.window - 1)).filter (holdsAt frame e options)).map Prod.snd := by
  have positions : (frame.history.bars.zipIdx.drop (e.window - 1)).map Prod.snd =
      (List.range frame.history.bars.length).drop (e.window - 1) := by
    rw [List.map_drop, List.zipIdx_map_snd, List.range_eq_range']
  unfold hits
  rw [filter_range_from, ← positions, List.filter_map]
  congr 1
  refine List.filter_congr fun row member => ?_
  have here : frame.history.bars[row.2]? = some row.1 :=
    List.mk_mem_zipIdx_iff_getElem?.1 (List.mem_of_mem_drop member)
  simp only [Function.comp, here, Option.any_some, matched_fresh, holdsAt, Options.admits]

private theorem reported_matchRows :
    List.Forall₂ (Reported frame e options)
      (matchRows frame e options (frame.history.bars.zipIdx.drop (e.window - 1)) .empty).1
      (hits frame e options) := by
  rw [(matchRows_gives _ .empty frame.shown_empty).1, hits_eq, List.forall₂_map_left_iff,
    List.forall₂_map_right_iff, List.forall₂_same]
  intro row member
  have inside := List.mem_of_mem_drop (List.mem_filter.1 member).1
  refine ⟨row.1, List.mk_mem_zipIdx_iff_getElem?.1 inside, describes_ofBar _ _ _ _, ?_⟩
  rw [explain_fresh]
  rfl

theorem accounted_scanSymbol (history : History) :
    Accounted e options history (scanSymbol e options false history).part := by
  unfold scanSymbol
  rw [if_neg Bool.false_ne_true]
  split
  · rename_i no_rows
    exact .empty (List.isEmpty_iff.1 no_rows)
  · rename_i rows
    have some_rows : history.bars ≠ [] := fun none_at_all => rows (List.isEmpty_iff.2 none_at_all)
    split
    · rename_i problem failed
      exact .faulty some_rows failed
    · rename_i frame prepared
      obtain rfl : frame.history = history := Frame.history_of_prepare prepared
      split
      · rename_i few
        exact .short some_rows prepared few
      · rename_i enough
        exact .whole some_rows prepared (Nat.not_lt.1 enough) reported_matchRows

end

theorem scan_quiet (e : Expression) (options : Options) (histories : List History) :
    scan .quiet e options histories = .ok (collect options.order (histories.map (scanSymbol e options false))) := by
  have outcomes : histories.zipIdx.map (scanSymbol e options false ∘ Prod.fst) =
      histories.map (scanSymbol e options false) := by
    rw [← List.map_map, List.zipIdx_map_fst]
  have finished : (histories.map (scanSymbol e options false)).any Outcome.isCancelled = false := by
    rw [List.any_map, List.any_eq_false]
    intro history _
    simp [isCancelled_scanSymbol]
  rw [← outcomes] at finished ⊢
  exact if_neg (Bool.eq_false_iff.1 finished)

private theorem madeOf_collect (order : Order) (outcomes : List Outcome) :
    (collect order outcomes).MadeOf (outcomes.map Outcome.part) where
  results := by
    rw [List.flatMap_map]
    exact List.mergeSort_perm _ _
  diagnostics := by
    rw [List.flatMap_map]
    exact (List.mergeSort_perm _ _).trans (.of_eq (List.filterMap_eq_flatMap_toList _ _))
  skipped := by
    rw [List.flatMap_map]
    exact (List.mergeSort_perm _ _).trans (.of_eq (List.filterMap_eq_flatMap_toList _ _))

/-- A scan that nobody stops gives a report. The report has exactly one match for each hit of a symbol that has all
it takes, and each other symbol is in it once, as skipped or with its problem. -/
theorem scan_accounted (e : Expression) (options : Options) (histories : List History) :
    ∃ report parts, scan .quiet e options histories = .ok report ∧
      List.Forall₂ (Accounted e options) histories parts ∧ report.MadeOf parts := by
  refine ⟨_, _, scan_quiet e options histories, ?_, madeOf_collect options.order _⟩
  rw [List.map_map, List.forall₂_map_right_iff, List.forall₂_same]
  exact fun history _ => accounted_scanSymbol history

end Screener.Scan
