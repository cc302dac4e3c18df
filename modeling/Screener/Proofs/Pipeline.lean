import Screener.Pipeline
import Screener.Proofs.Scan.Sorting
import Mathlib.Data.List.Flatten

/-! What a run reports of its list of symbols. Every entry of the list is accounted for once: as not loaded, with
a problem, as skipped or by its matches. An entry that is taken off the list takes its own records with it and
leaves all others as they stand. -/
namespace Screener
open Scan (Outcome Report Diagnostic Match Skipped)

/-- All that a run does with a symbol of its list. -/
structure Task where
  filter : Filter.Expression
  options : Scan.Options
  base : Timeframe
  bars : String → Except Failure (List Bar)

/-- What a symbol of the list has to add to the report. -/
inductive Task.Settles (task : Task) (symbol : String) : Report → Prop
  | unloaded {failure : Failure} : task.bars symbol = .error failure →
    Settles task symbol ⟨[], [⟨symbol, .unloaded symbol failure.message⟩], []⟩
  | loaded {bars : List Bar} {part : Report} : task.bars symbol = .ok bars →
    Scan.Accounted task.filter task.options (.ofBars symbol task.base bars) part → Settles task symbol part

/-- The symbols of the plan, else those of the settings, else those that the source lists. -/
inductive Plan.Resolves (plan : Plan) (settings : Settings.ScanSettings) (source : Source) : List String → Prop
  | planned {symbols : List String} : plan.symbols = some symbols → Resolves plan settings source symbols
  | configured {symbols : List String} : plan.symbols = none → settings.symbols = some symbols →
    Resolves plan settings source symbols
  | listed {symbols : List String} : plan.symbols = none → settings.symbols = none →
    source.symbols = .ok symbols → Resolves plan settings source symbols

def Plan.task (plan : Plan) (settings : Settings.ScanSettings) (source : Source) : Task :=
  ⟨plan.filter, plan.options, settings.base, source.bars⟩

/-- The longer report has the records of the part between those of the shorter one, and nothing else. -/
structure Scan.Report.Adds (shorter part longer : Report) : Prop where
  results : shorter.results.Sublist longer.results ∧ longer.results.Perm (part.results ++ shorter.results)
  diagnostics : shorter.diagnostics.Sublist longer.diagnostics ∧
    longer.diagnostics.Perm (part.diagnostics ++ shorter.diagnostics)
  skipped : shorter.skipped.Sublist longer.skipped ∧ longer.skipped.Perm (part.skipped ++ shorter.skipped)

/-- Nothing is recorded against the symbol that added the part, so it was scanned. -/
def Scan.Report.isScanned (part : Report) : Bool := part.diagnostics.isEmpty && part.skipped.isEmpty

private theorem filterMap_cons_toList {α β : Type} (f : α → Option β) (a : α) (xs : List α) :
    (a :: xs).filterMap f = (f a).toList ++ xs.filterMap f := by
  rw [List.filterMap_cons]
  cases f a <;> rfl

theorem Task.Settles.length {task : Task} {symbol : String} {part : Report}
    (settled : task.Settles symbol part) :
    part.diagnostics.length + part.skipped.length + [part].countP Scan.Report.isScanned = 1 := by
  cases settled with
  | unloaded => rfl
  | loaded _ accounted => cases accounted <;> rfl

theorem Scan.Report.MadeOf.length {task : Task} {report : Report} {symbols : List String} {parts : List Report}
    (made : report.MadeOf parts) (settled : List.Forall₂ task.Settles symbols parts) :
    report.diagnostics.length + report.skipped.length + parts.countP isScanned = symbols.length := by
  rw [made.diagnostics.length_eq, made.skipped.length_eq]
  clear made
  induction settled with
  | nil => rfl
  | @cons symbol part symbols parts first _ ih =>
    have one := first.length
    rw [List.countP_cons, List.countP_nil] at one
    rw [List.flatMap_cons, List.flatMap_cons, List.length_append, List.length_append, List.countP_cons, List.length_cons]
    omega

namespace Task
variable (task : Task)

def history? (symbol : String) : Option History := (task.bars symbol).toOption.map (.ofBars symbol task.base)

def unloaded? (symbol : String) : Option Diagnostic :=
  match task.bars symbol with
  | .ok _ => none
  | .error failure => some ⟨symbol, .unloaded symbol failure.message⟩

def scan : History → Outcome := Scan.scanSymbol task.filter task.options false

def outcome (symbol : String) : Outcome :=
  match task.bars symbol with
  | .ok bars => task.scan (.ofBars symbol task.base bars)
  | .error failure => .failed ⟨symbol, .unloaded symbol failure.message⟩

theorem settles_outcome (symbol : String) : task.Settles symbol (task.outcome symbol).part := by
  unfold outcome
  cases given : task.bars symbol with
  | ok bars => exact .loaded given (Scan.accounted_scanSymbol _)
  | error failure => exact .unloaded given

private theorem flatMap_outcome {β : Type} {records : Outcome → List β} (silent : ∀ d, records (.failed d) = [])
    (symbols : List String) :
    ((symbols.filterMap task.history?).map task.scan).flatMap records = (symbols.map task.outcome).flatMap records := by
  induction symbols with
  | nil => rfl
  | cons symbol rest ih =>
    rw [List.filterMap_cons, List.map_cons, List.flatMap_cons, ← ih, history?, outcome]
    cases task.bars symbol with
    | ok bars => rfl
    | error failure => exact (congrArg (· ++ _) (silent _)).symm

private theorem diagnostics_outcome (symbols : List String) :
    (((symbols.filterMap task.history?).map task.scan).filterMap Outcome.diagnostic? ++
      symbols.filterMap task.unloaded?).Perm ((symbols.map task.outcome).filterMap Outcome.diagnostic?) := by
  induction symbols with
  | nil => exact .nil
  | cons symbol rest ih =>
    rw [List.filterMap_cons, List.filterMap_cons, List.map_cons, List.filterMap_cons, history?, unloaded?, outcome]
    cases task.bars symbol with
    | ok bars =>
      simp only [Except.toOption, Option.map_some, List.map_cons, List.filterMap_cons]
      cases (task.scan (.ofBars symbol task.base bars)).diagnostic? with
      | none => exact ih
      | some d => exact ih.cons d
    | error failure => exact List.perm_middle.trans (ih.cons _)

def report (symbols : List String) : Report :=
  (Scan.collect task.options.order ((symbols.filterMap task.history?).map task.scan)).adding
    (symbols.filterMap task.unloaded?)

private theorem load_eq {source : Source} (same : source.bars = task.bars) (symbols : List String) :
    Universe.load source task.base symbols =
      ⟨symbols.filterMap task.history?, symbols.filterMap task.unloaded?⟩ := by
  induction symbols with
  | nil => rfl
  | cons symbol rest ih =>
    rw [Universe.load, ih, same, List.filterMap_cons, List.filterMap_cons, history?, unloaded?]
    cases task.bars symbol <;> rfl

theorem results_report (symbols : List String) :
    (task.report symbols).results =
      ((symbols.map task.outcome).flatMap Outcome.matches?).mergeSort (Match.notAfter task.options.order) := by
  rw [← task.flatMap_outcome fun _ => rfl]
  rfl

theorem skipped_report (symbols : List String) :
    (task.report symbols).skipped =
      ((symbols.map task.outcome).filterMap Outcome.skipped?).mergeSort Skipped.notAfter := by
  rw [List.filterMap_eq_flatMap_toList, ← task.flatMap_outcome fun _ => rfl, ← List.filterMap_eq_flatMap_toList]
  rfl

theorem diagnostics_report (symbols : List String) :
    (task.report symbols).diagnostics.Perm ((symbols.map task.outcome).filterMap Outcome.diagnostic?) := by
  refine (List.mergeSort_perm _ _).trans (.trans ?_ (task.diagnostics_outcome symbols))
  exact (List.mergeSort_perm _ _).append_right _

private theorem madeOf_report (symbols : List String) :
    (task.report symbols).MadeOf ((symbols.map task.outcome).map Outcome.part) where
  results := by
    rw [results_report, List.flatMap_map Outcome.part]
    exact List.mergeSort_perm _ _
  diagnostics := by
    rw [List.flatMap_map]
    exact (task.diagnostics_report symbols).trans (.of_eq (List.filterMap_eq_flatMap_toList _ _))
  skipped := by
    rw [skipped_report, List.flatMap_map]
    exact (List.mergeSort_perm _ _).trans (.of_eq (List.filterMap_eq_flatMap_toList _ _))

private theorem report_adds (before after : List String) (symbol : String) :
    (task.report (before ++ after)).Adds (task.outcome symbol).part (task.report (before ++ symbol :: after)) := by
  have part : (before ++ after).Sublist (before ++ symbol :: after) :=
    (List.Sublist.refl before).append (List.sublist_cons_self symbol after)
  have moved : ((before ++ symbol :: after).map task.outcome).Perm
      (task.outcome symbol :: (before ++ after).map task.outcome) := List.perm_middle.map task.outcome
  constructor
  · rw [results_report, results_report]
    refine ⟨(Scan.sorts_match _).sublist_mergeSort ((part.map _).flatMap _), ?_⟩
    refine (List.mergeSort_perm _ _).trans ((moved.flatMap_right _).trans ?_)
    exact (List.mergeSort_perm _ _).symm.append_left _
  · refine ⟨Scan.sorts_diagnostic.sublist_mergeSort (.append ?_ (part.filterMap _)), ?_⟩
    · exact Scan.sorts_diagnostic.sublist_mergeSort (((part.filterMap _).map _).filterMap _)
    · refine (task.diagnostics_report _).trans ((moved.filterMap _).trans ?_)
      rw [filterMap_cons_toList]
      exact (task.diagnostics_report _).symm.append_left _
  · rw [skipped_report, skipped_report]
    refine ⟨Scan.sorts_skipped.sublist_mergeSort ((part.map _).filterMap _), ?_⟩
    refine (List.mergeSort_perm _ _).trans ((moved.filterMap _).trans ?_)
    rw [filterMap_cons_toList]
    exact (List.mergeSort_perm _ _).symm.append_left _

theorem Settles.named {symbol : String} {part : Report} (settled : task.Settles symbol part) : part.Named symbol := by
  cases settled with
  | unloaded =>
    constructor
    · exact fun m member => nomatch member
    · intro d member
      rw [List.mem_singleton.1 member]
    · exact fun s member => nomatch member
  | loaded _ accounted => exact Scan.named_of_accounted accounted

theorem isCancelled_outcome (symbol : String) : (task.outcome symbol).isCancelled = false := by
  unfold outcome
  cases task.bars symbol with
  | ok bars => exact Scan.isCancelled_scanSymbol _ _ _
  | error failure => rfl

end Task

namespace Plan

section
variable {plan : Plan} {settings : Settings.ScanSettings} {source : Source}

theorem report_eq : plan.report settings source =
    (plan.targets settings source).map (plan.task settings source).report := by
  unfold report
  cases plan.targets settings source with
  | error failure => rfl
  | ok symbols =>
    have loaded : Universe.load source settings.base symbols = _ := (plan.task settings source).load_eq rfl symbols
    simp only [bind, Except.bind, Scan.scan_quiet, Except.mapError, loaded]
    rfl

private theorem targets_of_resolves {symbols : List String} (resolved : plan.Resolves settings source symbols) :
    plan.targets settings source = .ok symbols := by
  unfold targets
  cases resolved with
  | planned given => simp [given]
  | configured absent given => simp [absent, given]
  | listed absent absent' given => simp [absent, absent', given]

theorem targets_eq_error_iff {failure : Failure} : plan.targets settings source = .error failure ↔
    plan.symbols = none ∧ settings.symbols = none ∧ source.symbols = .error failure := by
  unfold targets
  cases plan.symbols <;> cases settings.symbols <;> simp

end

/-- A run fails only if the source has to be asked for its symbols and cannot tell them. Otherwise it gives a report
in order, in which every entry of the list is accounted for once. Taking an entry off the list takes from the report
what that entry had to come to, and nothing else. -/
theorem report_accounted (plan : Plan) (settings : Settings.ScanSettings) (source : Source) :
    (∀ failure, plan.report settings source = .error failure ↔
      plan.symbols = none ∧ settings.symbols = none ∧ source.symbols = .error failure) ∧
    ∀ symbols, plan.Resolves settings source symbols →
      ∃ report parts, plan.report settings source = .ok report ∧ report.InOrder plan.options.order ∧
        List.Forall₂ (plan.task settings source).Settles symbols parts ∧ report.MadeOf parts ∧
        report.diagnostics.length + report.skipped.length + parts.countP Report.isScanned = symbols.length ∧
        ∀ before symbol after, symbols = before ++ symbol :: after →
          ∀ (other : Plan) settings' source', other.task settings' source' = plan.task settings source →
            other.Resolves settings' source' (before ++ after) →
            ∃ shorter part, other.report settings' source' = .ok shorter ∧
              (plan.task settings source).Settles symbol part ∧ part.Named symbol ∧ shorter.Adds part report := by
  refine ⟨fun failure => ?_, fun symbols resolved => ?_⟩
  · rw [← targets_eq_error_iff, report_eq]
    cases plan.targets settings source <;> simp [Except.map]
  · generalize made : plan.task settings source = task
    have settled : List.Forall₂ task.Settles symbols ((symbols.map task.outcome).map Outcome.part) := by
      rw [List.map_map, List.forall₂_map_right_iff, List.forall₂_same]
      exact fun symbol _ => task.settles_outcome symbol
    have parts := task.madeOf_report symbols
    refine ⟨task.report symbols, _, ?_, ?_, settled, parts, parts.length settled, ?_⟩
    · rw [report_eq, targets_of_resolves resolved, made]
      rfl
    · rw [← made]
      exact (Scan.inOrder_sorted _ _).adding _
    · rintro before symbol after rfl other settings' source' same shorter
      have came := task.settles_outcome symbol
      refine ⟨_, _, ?_, came, came.named, task.report_adds before after symbol⟩
      rw [report_eq, targets_of_resolves shorter, same]
      rfl

namespace Sample

def source : Source where
  bars symbol := if symbol = "A" then .ok Evaluation.Sample.history.bars else .error (.noData symbol)
  symbols := .ok ["A", "B", "A"]
  span? _ := .ok none

def settings : Settings.ScanSettings :=
  ⟨.directory, some "bars", .daily, none, 4, true, 0, .descending, none, ⟨"info", .text⟩⟩

def plan : Plan := ⟨Evaluation.Sample.filter, {}, none⟩

end Sample

theorem report_accounted_sample :
    ∃ report shorter part, Sample.plan.report Sample.settings Sample.source = .ok report ∧
      { Sample.plan with symbols := some ["A", "A"] }.report Sample.settings Sample.source = .ok shorter ∧
      (Sample.plan.task Sample.settings Sample.source).Settles "B" part ∧ shorter.Adds part report := by
  obtain ⟨-, settled⟩ := report_accounted Sample.plan Sample.settings Sample.source
  obtain ⟨report, _, given, -, -, -, -, less⟩ := settled _ (.listed rfl rfl rfl)
  obtain ⟨shorter, part, given', came, -, adds⟩ :=
    less ["A"] "B" ["A"] rfl { Sample.plan with symbols := some ["A", "A"] } Sample.settings Sample.source rfl (.planned rfl)
  exact ⟨report, shorter, part, given, given', came, adds⟩

end Plan
end Screener
