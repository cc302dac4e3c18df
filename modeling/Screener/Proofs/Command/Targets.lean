import Screener.Proofs.Command.Plan
import Screener.Proofs.Dictionary
import Screener.Proofs.Repetition
import Screener.Proofs.Universe

/-! The symbols that a scan goes through, and what its report says of them. A list on the command line or in the settings
and the list of a source name every symbol once, and then the report says nothing twice. The list of a request is taken
as it is; if it names a symbol twice, then what is reported of the symbol is reported twice. -/
namespace Screener
open Settings (Lookup ScanSettings)
open Scan (Report Outcome)

theorem Settings.proper_of_ofLookup {lookup : Lookup} {settings : ScanSettings}
    (read : ScanSettings.ofLookup lookup = .ok settings) {symbols : List String} (listed : settings.symbols = some symbols) :
    Universe.Proper symbols := by
  simp only [ScanSettings.ofLookup, bind_eq_ok_iff] at read
  obtain ⟨_, -, _, -, _, -, _, -, _, -, _, -, _, -, _, -, found, read, _, -, made⟩ := read
  cases made
  obtain rfl : found = some symbols := listed
  unfold symbolsOf at read
  split at read
  · cases read
  · rename_i list _
    cases taken : Universe.ofText list with
    | error fault =>
      rw [taken] at read
      cases read
    | ok symbols =>
      rw [taken] at read
      cases read
      exact Universe.proper_of_ofText taken

theorem Directory.nodup_symbols {files : Files} {directory : String} {symbols : List String}
    (listed : Directory.symbols files directory = .ok symbols) : symbols.Nodup := by
  unfold Directory.symbols at listed
  split at listed
  · cases listed
    exact Dictionary.nodup_names _
  · cases listed

theorem Store.nodup_symbols {store : Store} {symbols : List String} (listed : store.symbols = .ok symbols) :
    symbols.Nodup := by
  unfold Store.symbols Store.access at listed
  split at listed
  · cases listed
    exact Dictionary.nodup_names _
  · cases listed

namespace Command

section
variable {arguments : ScanArguments} {lookup : Lookup} {settings : ScanSettings} {before after : Effects} {plan : Plan}
  {source : Source}

private theorem nodup_of_openSource (opened : (openSource settings).Gives before source after) {symbols : List String}
    (listed : source.symbols = .ok symbols) : symbols.Nodup := by
  unfold openSource at opened
  split at opened
  · split at opened
    · simp only [Run.bind_gives_iff, Run.pure_gives_iff] at opened
      obtain ⟨_, _, -, rfl, -⟩ := opened
      exact Directory.nodup_symbols listed
    · exact (Run.throw_gives_iff.1 opened).elim
  · split at opened
    · simp only [Run.bind_gives_iff, Run.pure_gives_iff] at opened
      obtain ⟨_, _, -, rfl, -⟩ := opened
      exact Store.nodup_symbols listed
    · exact (Run.throw_gives_iff.1 opened).elim

/-- The symbols of a scan are those on the command line, else those of the request, else those in the settings, else those
that the source lists. -/
inductive Supplies (arguments : ScanArguments) (request : Option Request) (settings : ScanSettings) (source : Source) :
    List String → Prop
  | flag {list : String} {symbols : List String} : arguments.symbols = some list → Universe.ofText list = .ok symbols →
    Supplies arguments request settings source symbols
  | request {texts : List String} : arguments.symbols = none → request.bind Request.symbols = some texts →
    Supplies arguments request settings source (texts.map Universe.standardForm)
  | settings {symbols : List String} : arguments.symbols = none → request.bind Request.symbols = none →
    settings.symbols = some symbols → Supplies arguments request settings source symbols
  | source {symbols : List String} : arguments.symbols = none → request.bind Request.symbols = none →
    settings.symbols = none → source.symbols = .ok symbols → Supplies arguments request settings source symbols

private theorem supplies_of_targets (resolved : (planOf arguments lookup settings).Gives before plan after)
    {symbols : List String} (targets : plan.targets settings source = .ok symbols) :
    ∃ request, arguments.filter.Brings before.files request ∧ Supplies arguments request settings source symbols := by
  obtain ⟨base, based, range, -, listed, named, rfl⟩ := planOf_gives_iff.1 resolved
  obtain ⟨request, brought, -, asked, -⟩ := basis_settles based
  refine ⟨request, brought, ?_⟩
  have asked : base.symbols = (request.bind Request.symbols).map (·.map Universe.standardForm) := by
    rw [asked]
    cases request <;> rfl
  obtain ⟨flagged, said, rfl⟩ := says_of_symbolsOf named
  cases flag : arguments.symbols with
  | some list =>
    rw [flag] at said
    obtain ⟨read, listed, rfl⟩ := says_some_iff.1 said
    cases targets
    exact .flag flag (toOption_eq_some_iff.1 listed)
  | none =>
    rw [flag] at said
    obtain rfl := says_none_iff.1 said
    rw [asked] at targets
    cases wanted : request.bind Request.symbols with
    | some texts =>
      rw [wanted] at targets
      cases targets
      exact .request flag wanted
    | none =>
      rw [wanted] at targets
      unfold Plan.targets at targets
      cases configured : settings.symbols with
      | some symbols =>
        simp only [configured] at targets
        cases targets
        exact .settings flag wanted configured
      | none =>
        simp only [configured] at targets
        exact .source flag wanted configured targets

theorem Supplies.proper {request : Option Request} {symbols : List String}
    (supplied : Supplies arguments request settings source symbols) (valid : ScanSettings.ofLookup lookup = .ok settings)
    (written : arguments.symbols.isSome ∨ request.bind Request.symbols = none ∧ settings.symbols.isSome) :
    Universe.Proper symbols := by
  cases supplied with
  | flag _ read => exact Universe.proper_of_ofText read
  | settings _ _ configured => exact Settings.proper_of_ofLookup valid configured
  | request unflagged wanted => simp [unflagged, wanted] at written
  | source unflagged _ unconfigured _ => simp [unflagged, unconfigured] at written

theorem Supplies.nodup {request : Option Request} {symbols : List String}
    (supplied : Supplies arguments request settings source symbols) (valid : ScanSettings.ofLookup lookup = .ok settings)
    (reached : (openSource settings).Gives before source after)
    (unasked : arguments.symbols = none → request.bind Request.symbols = none) : symbols.Nodup := by
  cases supplied with
  | flag _ read => exact (Universe.proper_of_ofText read).distinct
  | settings _ _ configured => exact (Settings.proper_of_ofLookup valid configured).distinct
  | source _ _ _ listed => exact nodup_of_openSource reached listed
  | request unflagged wanted => simp [unasked unflagged] at wanted

/-- A scan prints its report, or it writes it to a file and notes how many matches it has. -/
def Leaves (arguments : ScanArguments) (report : Report) (before after : Effects) : Prop :=
  match arguments.output with
  | none => { before with output := before.output ++ report.toJson.pretty ++ "\n" } = after
  | some path => ∃ files, before.files.write? path (.text report.toJson.pretty) = some files ∧
    { before with
      files, errors := before.errors ++ s!"{report.results.length} matches written to {path}" ++ "\n" } = after

/-- A scan that came to its end: what it read, and the report that it made of that. -/
structure Completed (arguments : ScanArguments) (before after : Effects) where
  lookup : Lookup
  settings : ScanSettings
  plan : Plan
  planned : Effects
  source : Source
  opened : Effects
  report : Report
  configured : (readConfig arguments.config).Gives before lookup before
  valid : ScanSettings.ofLookup lookup = .ok settings
  resolved : (planOf arguments lookup settings).Gives before plan planned
  reached : (openSource settings).Gives planned source opened
  reported : plan.report settings source = .ok report
  left : Leaves arguments report opened after

theorem runScan_gives_iff :
    (runScan arguments).Gives before () after ↔ Nonempty (Completed arguments before after) := by
  simp only [runScan, Run.bind_gives_iff, settingsOf_gives_iff, Run.lift_gives_iff, and_assoc, exists_and_left,
    exists_eq_left']
  constructor
  · rintro ⟨lookup, _, configured, settings, valid, plan, planned, resolved, source, opened, reached, report, reported, left⟩
    obtain rfl := (readConfig_gives_iff.1 configured).2
    refine ⟨lookup, settings, plan, planned, source, opened, report, configured, valid, resolved, reached, reported, ?_⟩
    unfold Leaves
    cases output : arguments.output with
    | none =>
      rw [output] at left
      exact print_gives_iff.1 left
    | some path =>
      rw [output] at left
      obtain ⟨_, _, wrote, noted⟩ := Run.bind_gives_iff.1 left
      obtain ⟨files, written, rfl⟩ := write_gives_iff.1 wrote
      exact ⟨files, written, note_gives_iff.1 noted⟩
  · rintro ⟨lookup, settings, plan, planned, source, opened, report, configured, valid, resolved, reached, reported, left⟩
    refine ⟨lookup, before, configured, settings, valid, plan, planned, resolved, source, opened, reached, report, reported,
      ?_⟩
    unfold Leaves at left
    cases output : arguments.output with
    | none =>
      rw [output] at left
      exact print_gives_iff.2 left
    | some path =>
      rw [output] at left
      obtain ⟨files, written, noted⟩ := left
      exact Run.bind_gives_iff.2 ⟨(), _, write_gives_iff.2 ⟨files, written, rfl⟩, note_gives_iff.2 noted⟩

def Completed.outcome (scan : Completed arguments before after) : String → Outcome :=
  (scan.plan.task scan.settings scan.source).outcome

/-- A list of symbols on the command line or in the settings that is not refused has none that is blank and none twice, and
a source lists none twice. The report of a scan repeats itself only if the symbols are those of the request, and then
exactly if the request names a symbol twice of which something is reported. -/
theorem scan_distinct_iff (done : (runScan arguments).Gives before () after) :
    ∃ (scan : Completed arguments before after) (request : Option Request) (symbols : List String),
      arguments.filter.Brings before.files request ∧ Supplies arguments request scan.settings scan.source symbols ∧
      (arguments.symbols.isSome ∨ request.bind Request.symbols = none ∧ scan.settings.symbols.isSome →
        Universe.Proper symbols) ∧
      ((arguments.symbols = none → request.bind Request.symbols = none) → symbols.Nodup) ∧
      (scan.report.Distinct ↔ ∀ texts, arguments.symbols = none → request.bind Request.symbols = some texts →
        ∀ symbol, (texts.map Universe.standardForm).Duplicate symbol → scan.outcome symbol = .matched []) := by
  obtain ⟨scan⟩ := runScan_gives_iff.1 done
  have reported := scan.reported
  rw [Plan.report_eq] at reported
  obtain ⟨symbols, targets, made⟩ := map_eq_ok_iff.1 reported
  obtain ⟨request, brought, supplied⟩ := supplies_of_targets scan.resolved targets
  have nodup := supplied.nodup scan.valid scan.reached
  refine ⟨scan, request, symbols, brought, supplied, supplied.proper scan.valid, nodup, ?_⟩
  rw [← made, Task.distinct_report_iff]
  -- Only the list of a request can have a symbol twice; with any other list both sides hold.
  by_cases asked : arguments.symbols = none ∧ (request.bind Request.symbols).isSome
  · obtain ⟨unflagged, asked⟩ := asked
    cases supplied with
    | flag flag => simp [unflagged] at flag
    | settings _ unasked | source _ unasked => simp [unasked] at asked
    | @request texts _ wanted =>
      refine ⟨fun silent other _ same => ?_, fun silent => silent texts unflagged wanted⟩
      obtain rfl : texts = other := Option.some.inj (wanted.symm.trans same)
      exact silent
  · have unasked : arguments.symbols = none → request.bind Request.symbols = none := by simpa using asked
    refine ⟨fun _ texts unflagged wanted => ?_, fun _ symbol twice => ?_⟩
    · simp [unasked unflagged] at wanted
    · exact absurd (nodup unasked) (List.nodup_iff_forall_not_duplicate.not.2 fun each => each symbol twice)

end

namespace Sample
open Settings (Ini)

private theorem ofText_settings : ∃ ini, (files.text? "settings.ini").bind Ini.ofText? = some ini ∧
    ScanSettings.ofLookup ini.lookup = .ok Plan.Sample.settings := by
  have computed : ((files.text? "settings.ini").bind Ini.ofText?).bind
      (fun ini => (ScanSettings.ofLookup ini.lookup).toOption) = some Plan.Sample.settings := by
    decide +kernel
  obtain ⟨ini, read, valid⟩ := Option.bind_eq_some_iff.1 computed
  exact ⟨ini, read, toOption_eq_some_iff.1 valid⟩

def source : Source := Directory.source files "bars"

private theorem exists_completed {request : Request} {filter : Filter.Expression}
    (read : Request.ofText document.compact = .ok request) (checked : request.expression = .ok filter)
    (dates : request.dates = some ("2025-03-01", "2025-03-31"))
    {symbols : Option String} {targets : List String}
    (listed : symbolsOf (arguments symbols none none) request.targets = .ok (some targets)) :
    ∃ (after : Effects) (scan : Completed (arguments symbols none none) ⟨"", "", files⟩ after),
      scan.report = (Task.mk filter { order := request.order.getD .descending, range := some march } .daily
        source.bars).report targets := by
  obtain ⟨ini, settings, valid⟩ := ofText_settings
  have resolved := planOf_document read checked dates symbols none none rfl listed ini.lookup Plan.Sample.settings
  refine ⟨_, ⟨ini.lookup, Plan.Sample.settings, _, _, source, ⟨"", "", files⟩, _, ?_, valid, resolved, ?_, ?_, rfl⟩, rfl⟩
  · refine readConfig_gives_iff.2 ⟨?_, rfl⟩
    exact settings ▸ rfl
  · exact rfl
  · rw [Plan.report_eq]
    rfl

end Sample

theorem scan_distinct_iff_sample : ∃ (after : Effects)
    (scan : Completed (Sample.arguments (some "a, b") none none) ⟨"", "", Sample.files⟩ after),
    (runScan (Sample.arguments (some "a, b") none none)).Gives ⟨"", "", Sample.files⟩ () after ∧
      scan.report.Distinct := by
  obtain ⟨request, filter, _, read, checked, -, dates, -, -⟩ := Sample.ofText_document
  have listed : symbolsOf (Sample.arguments (some "a, b") none none) request.targets = .ok (some ["A", "B"]) := rfl
  obtain ⟨after, scan, -⟩ := Sample.exists_completed read checked dates listed
  have done := runScan_gives_iff.2 ⟨scan⟩
  obtain ⟨scan, _, _, -, -, -, -, distinct⟩ := scan_distinct_iff done
  exact ⟨after, scan, done, distinct.2 fun _ unflagged => nomatch unflagged⟩

/-- A request that names a symbol in two ways has the rows of the symbol reported twice. -/
theorem exists_row_reported_twice : ∃ (arguments : ScanArguments) (before after : Effects)
    (scan : Completed arguments before after), (runScan arguments).Gives before () after ∧
      ¬ (scan.report.results.map fun m => (m.symbol, m.index)).Nodup := by
  obtain ⟨request, filter, bars, read, checked, loaded, dates, symbols, found⟩ := Sample.ofText_document
  have listed : symbolsOf (Sample.arguments none none none) request.targets = .ok (some ["A", "A"]) := by
    rw [Request.targets, symbols]
    rfl
  obtain ⟨after, scan, made⟩ := Sample.exists_completed read checked dates listed
  refine ⟨_, _, after, scan, runScan_gives_iff.2 ⟨scan⟩, ?_⟩
  rw [made, Task.nodup_results_iff]
  intro silent
  have nothing := silent "A" (List.duplicate_cons_self_iff.2 List.mem_cons_self)
  rw [Task.rows, List.map_eq_nil_iff, Task.outcome_of_loaded _ loaded] at nothing
  have none_found : [] = [0] := (List.map_eq_nil_iff.2 nothing).symm.trans found
  cases none_found

end Command
end Screener
