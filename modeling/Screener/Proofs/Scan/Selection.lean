import Screener.Proofs.Scan.Sorting

/-! What the options of a scan do to its report. A range of dates takes results out and explanations are added to
them; neither has any influence on what else the report says. -/
namespace Screener.Scan
open Screener.Filter (Expression)
open Evaluation (Frame Verdict)

def Report.within (range : DateRange) (report : Report) : Report :=
  { report with results := report.results.filter (range.contains ·.date) }

def Match.unexplained (m : Match) : Match := { m with verdict := none }

def Report.unexplained (report : Report) : Report :=
  { report with results := report.results.map Match.unexplained }

/-- A verdict that the filter holds. It has an outcome for each condition, which is what the condition comes to
when it is asked for, whatever was asked before. -/
structure Explained (frame : Frame) (e : Expression) (position : Nat) (verdict : Verdict) : Prop where
  matched : verdict.matched
  outcomes : List.Forall₂ (fun condition outcome => outcome.condition = condition.wording ∧
    ∀ before, frame.answer e before (.condition condition position) = .decision outcome.result)
    e.conditions verdict.outcomes

def Outcome.mapMatches (f : List Match → List Match) : Outcome → Outcome
  | .matched found => .matched (f found)
  | other => other

variable {e : Expression} {options other : Options} {f : List Match → List Match}

private theorem scanSymbol_of_found (same : ∀ frame, found frame e options = f (found frame e other)) :
    scanSymbol e options false = Outcome.mapMatches f ∘ scanSymbol e other false := by
  funext history
  rw [Function.comp, scanSymbol_eq, scanSymbol_eq]
  split
  · rfl
  · cases Frame.prepare history e with
    | error problem => rfl
    | ok frame =>
      simp only [same]
      split <;> rfl

private theorem diagnostic?_mapMatches (outcome : Outcome) :
    (outcome.mapMatches f).diagnostic? = outcome.diagnostic? := by
  cases outcome <;> rfl

private theorem skipped?_mapMatches (outcome : Outcome) : (outcome.mapMatches f).skipped? = outcome.skipped? := by
  cases outcome <;> rfl

private theorem matches?_mapMatches (none_at_all : f [] = []) (outcome : Outcome) :
    (outcome.mapMatches f).matches? = f outcome.matches? := by
  cases outcome with
  | matched found => rfl
  | skipped | failed | cancelled => exact none_at_all.symm

/-- What can be done to the matches of each symbol can be done to the report instead, if it neither depends on
where a match stands nor changes the order. -/
theorem scan_of_found (same : ∀ frame, found frame e options = f (found frame e other))
    (order : options.order = other.order)
    (joined : ∀ outcomes : List Outcome, outcomes.flatMap (f ·.matches?) = f (outcomes.flatMap Outcome.matches?))
    (sorted : ∀ order found, (f found).mergeSort (Match.notAfter order) = f (found.mergeSort (Match.notAfter order)))
    {histories : List History} {report : Report} (scanned : scan .quiet e other histories = .ok report) :
    scan .quiet e options histories = .ok { report with results := f report.results } := by
  have none_at_all : f [] = [] := (joined []).symm
  rw [scan_quiet] at scanned ⊢
  rw [← Except.ok.inj scanned, scanSymbol_of_found same, ← List.map_map, order]
  generalize histories.map (scanSymbol e other false) = outcomes
  simp only [collect, Report.sorted, List.flatMap_map, List.filterMap_map, Function.comp_def,
    matches?_mapMatches none_at_all, diagnostic?_mapMatches, skipped?_mapMatches, joined, sorted]

private theorem found_within (range : DateRange) (frame : Frame) :
    found frame e { options with range := some range } =
      (found frame e { options with range := none }).filter (range.contains ·.date) := by
  unfold found
  rw [List.filter_map, List.filter_filter]
  rfl

private theorem found_unexplained (frame : Frame) :
    found frame e { options with explain := false } =
      (found frame e { options with explain := true }).map Match.unexplained := by
  unfold found
  rw [List.map_map]
  rfl

private theorem scan_within (range : DateRange) {histories : List History} {report : Report}
    (scanned : scan .quiet e { options with range := none } histories = .ok report) :
    scan .quiet e { options with range := some range } histories = .ok (report.within range) :=
  scan_of_found (found_within range) rfl (fun _ => List.filter_flatMap.symm)
    (fun order found => ((sorts_match order).filter_mergeSort _ found).symm) scanned

private theorem scan_unexplained {histories : List History} {report : Report}
    (scanned : scan .quiet e { options with explain := true } histories = .ok report) :
    scan .quiet e { options with explain := false } histories = .ok report.unexplained :=
  scan_of_found found_unexplained rfl (fun _ => List.map_flatMap.symm)
    (fun _ _ => (List.map_mergeSort (f := Match.unexplained) fun _ _ _ _ => rfl).symm) scanned

private theorem explained_explainBy (frame : Frame) {position : Nat}
    (matched : Evaluation.matchedBy (frame.read? frame.series position) e) :
    Explained frame e position (Evaluation.explainBy (frame.read? frame.series position) e) where
  matched := matched
  outcomes := by
    refine List.forall₂_map_right_iff.2 (List.forall₂_same.2 fun condition _ => ⟨rfl, fun before => ?_⟩)
    rw [Frame.answer_eq]
    rfl

private theorem explained_of_mem {histories : List History} {report : Report}
    (scanned : scan .quiet e { options with explain := true } histories = .ok report) {m : Match}
    (member : m ∈ report.results) :
    ∃ history ∈ histories, ∃ frame row verdict, Frame.prepare history e = .ok frame ∧
      history.bars[m.index]? = some row ∧ m.Describes history.symbol m.index row ∧
      m.verdict = some verdict ∧ Explained frame e m.index verdict := by
  rw [scan_quiet] at scanned
  rw [← Except.ok.inj scanned] at member
  have inside := List.mem_mergeSort.1 member
  rw [List.flatMap_map, List.mem_flatMap] at inside
  obtain ⟨history, listed, inside⟩ := inside
  obtain ⟨frame, row, prepared, here, matched, made⟩ := of_mem_matches? inside
  refine ⟨history, listed, frame, row, _, prepared, here, ?_, ?_, explained_explainBy frame matched⟩
  · rw [made, ← Frame.history_of_prepare prepared]
    exact describes_ofBar _ _ _ _
  · rw [made]
    rfl

/-- A range of dates takes from the results those outside of it and nothing else from the report. Explanations are
the only thing that a report with them has more than one without; every match has one, and it says of each condition
what the condition comes to. -/
theorem scan_options (e : Expression) (options : Options) (range : DateRange) (histories : List History) :
    (∃ whole, scan .quiet e { options with range := none } histories = .ok whole ∧
      scan .quiet e { options with range := some range } histories = .ok (whole.within range)) ∧
    ∃ told, scan .quiet e { options with explain := true } histories = .ok told ∧
      scan .quiet e { options with explain := false } histories = .ok told.unexplained ∧
      ∀ m ∈ told.results, ∃ history ∈ histories, ∃ frame row verdict,
        Frame.prepare history e = .ok frame ∧ history.bars[m.index]? = some row ∧
        m.Describes history.symbol m.index row ∧ m.verdict = some verdict ∧ Explained frame e m.index verdict :=
  ⟨⟨_, scan_quiet _ _ _, scan_within range (scan_quiet _ _ _)⟩,
    ⟨_, scan_quiet _ _ _, scan_unexplained (scan_quiet _ _ _), fun _ => explained_of_mem (scan_quiet _ _ _)⟩⟩

section
open Evaluation.Sample (frame filter history tuesday)

theorem Sample.tuesday_found : matchOf frame filter { explain := true } (tuesday, 3) ∈
    (scanSymbol filter { explain := true } false history).matches? := by
  have listed : (tuesday, 3) ∈ frame.history.bars.zipIdx.drop (filter.window - 1) := .tail _ (.head _)
  have held : holdsAt frame filter { explain := true } (tuesday, 3) := by decide +kernel
  rw [scanSymbol_eq]
  exact List.mem_map_of_mem (List.mem_filter.2 ⟨listed, held⟩)

theorem scan_options_sample :
    ∃ told, scan .quiet filter { explain := true } [history] = .ok told ∧
      scan .quiet filter {} [history] = .ok told.unexplained ∧
      ∃ m ∈ told.results, m.index = 3 ∧ ∃ frame verdict, m.verdict = some verdict ∧ Explained frame filter 3 verdict := by
  obtain ⟨-, told, scanned, plain, explained⟩ := scan_options filter {} ⟨none, some tuesday.date⟩ [history]
  have member : matchOf frame filter { explain := true } (tuesday, 3) ∈ told.results := by
    have report := (scan_quiet filter { explain := true } [history]).symm.trans scanned
    rw [← Except.ok.inj report]
    exact List.mem_mergeSort.2 (List.mem_flatMap.2 ⟨_, List.mem_singleton_self _, Sample.tuesday_found⟩)
  obtain ⟨_, -, frame, _, verdict, -, -, -, has, correct⟩ := explained _ member
  exact ⟨told, scanned, plain, _, member, rfl, frame, verdict, has, correct⟩

end

end Screener.Scan
