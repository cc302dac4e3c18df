import Screener.Proofs.Command.Steps
import Screener.Proofs.Json.Text
import Screener.Proofs.Pipeline
import Screener.Proofs.Source.Columns

/-! Who settles what in the plan of a scan: the command line, the request or the settings. The order and the symbols of
the results each come from the first of these that gives them. The two bounds on the dates do not: a flag for one of
them puts aside what the request says about the other. -/
namespace Screener
open Settings (Lookup ScanSettings)
open Calendar (Timestamp)
open Scan (DateRange)

/-- The value is what the text says, and there is none without a text. -/
def Says {α : Type} (read? : String → Option α) (text : Option String) (value : Option α) : Prop :=
  text.map read? = value.map some

/-- A bound on dates is what its flag says, else what was asked for; but the flag of the other bound puts aside what was
asked for, and then the bound is open. -/
structure BoundSettled {α : Type} (read? : String → Option α) (flag other asked : Option String) (value : Option α) :
    Prop where
  says_iff : Says read? (flag.or asked) value ↔ flag.isSome ∨ other = none ∨ asked = none
  open_of_other : flag = none → other.isSome → value = none

def Plan.first? (plan : Plan) : Option Timestamp := plan.options.range.bind (·.first)

def Plan.last? (plan : Plan) : Option Timestamp := plan.options.range.bind (·.last)

section
variable {α : Type} {read? : String → Option α} {value : Option α}

theorem says_none_iff : Says read? none value ↔ value = none := by
  cases value <;> simp [Says]

theorem says_some_iff {text : String} : Says read? (some text) value ↔ ∃ x, read? text = some x ∧ value = some x := by
  cases value <;> simp [Says, eq_comm]

private theorem bound_settled {flag other asked : Option String}
    (said : Says read? (flag.or (if other.isSome then none else asked)) value) :
    BoundSettled read? flag other asked value := by
  cases flag with
  | some text => exact ⟨iff_of_true said (.inl rfl), fun absent => nomatch absent⟩
  | none =>
    cases other with
    | none => exact ⟨iff_of_true said (.inr (.inl rfl)), fun _ present => nomatch present⟩
    | some text =>
      obtain rfl : value = none := says_none_iff.1 said
      refine ⟨?_, fun _ _ => rfl⟩
      cases asked <;> simp [Says]

end

private theorem says_bound {read? : String → Option Timestamp} {step : String} {text : Option String}
    (faultless : (bound read? step text).2 = []) : Says read? text (bound read? step text).1 := by
  unfold bound at faultless ⊢
  cases text with
  | none => rfl
  | some text =>
    cases read : read? text with
    | none =>
      simp only [read] at faultless
      cases faultless
    | some date => exact says_some_iff.2 ⟨date, read, by simp only [read]⟩

private theorem says_of_ofText {first last : Option String} {range : DateRange}
    (made : DateRange.ofText first last = .ok range) :
    Says Timestamp.ofText? first range.first ∧ Says Timestamp.endOfText? last range.last := by
  simp only [DateRange.ofText] at made
  split at made
  · rename_i faultless
    obtain ⟨faultless, -⟩ := List.append_eq_nil_iff.1 faultless
    obtain ⟨first_read, last_read⟩ := List.append_eq_nil_iff.1 faultless
    cases made
    exact ⟨says_bound first_read, says_bound last_read⟩
  · cases made

namespace Command

section
variable {arguments : ScanArguments} {lookup : Lookup} {settings : ScanSettings} {before after : Effects} {plan : Plan}

inductive FilterSource.Brings (files : Files) : FilterSource → Option Request → Prop
  | request {path text : String} {request : Request} : files.text? path = some text → Request.ofText text = .ok request →
    Brings files (.request path) (some request)
  | saved {name : String} : Brings files (.saved name) none
  | file {path : String} : Brings files (.file path) none

theorem basis_request_gives_iff {path : String} :
    (basis lookup settings (.request path)).Gives before plan after ↔
    ∃ text, before.files.text? path = some text ∧ ∃ request, Request.ofText text = .ok request ∧
      ∃ filter, request.expression = .ok filter ∧ ∃ options, request.options settings.order = .ok options ∧
        ⟨filter, options, request.targets⟩ = plan ∧ before = after := by
  simp only [basis, Run.bind_gives_iff, readText_gives_iff, Run.lift_gives_iff, checked_gives_iff, Run.pure_gives_iff,
    and_assoc, exists_and_left, exists_eq_left']

theorem basis_settles {source : FilterSource} (given : (basis lookup settings source).Gives before plan after) :
    ∃ request, source.Brings before.files request ∧
      plan.options.order = (request.bind Request.order).getD settings.order ∧
      plan.symbols = request.bind Request.targets ∧
      Says Timestamp.ofText? ((request.bind Request.dates).map Prod.fst) plan.first? ∧
      Says Timestamp.endOfText? ((request.bind Request.dates).map Prod.snd) plan.last? := by
  cases source with
  | request path =>
    obtain ⟨text, there, request, read, filter, -, options, made, rfl, -⟩ := basis_request_gives_iff.1 given
    refine ⟨some request, .request there read, ?_⟩
    unfold Request.options at made
    cases dates : request.dates with
    | none =>
      simp only [dates] at made
      cases made
      refine ⟨rfl, rfl, ?_⟩
      rw [Option.bind_some, dates]
      exact ⟨rfl, rfl⟩
    | some pair =>
      obtain ⟨first, last⟩ := pair
      simp only [dates] at made
      obtain ⟨range, ranged, rfl⟩ := map_eq_ok_iff.1 made
      refine ⟨rfl, rfl, ?_⟩
      rw [Option.bind_some, dates]
      exact says_of_ofText ranged
  | saved name =>
    simp only [basis, Run.bind_gives_iff, Run.lift_gives_iff, and_assoc, exists_and_left, exists_eq_left'] at given
    obtain ⟨_, _, -, found, -, given⟩ := given
    cases found with
    | none => exact (Run.throw_gives_iff.1 given).elim
    | some saved =>
      obtain ⟨rfl, -⟩ := Run.pure_gives_iff.1 given
      exact ⟨none, .saved, rfl, rfl, rfl, rfl⟩
  | file path =>
    simp only [basis, Run.bind_gives_iff, Run.pure_gives_iff] at given
    obtain ⟨_, _, -, rfl, -⟩ := given
    exact ⟨none, .file, rfl, rfl, rfl, rfl⟩

theorem planOf_gives_iff : (planOf arguments lookup settings).Gives before plan after ↔
    ∃ base, (basis lookup settings arguments.filter).Gives before base after ∧
      ∃ range, rangeOf arguments base.options.range = .ok range ∧
      ∃ symbols, symbolsOf arguments base.symbols = .ok symbols ∧
        ⟨base.filter, { order := arguments.order.getD base.options.order, range, explain := arguments.explain }, symbols⟩ =
          plan := by
  simp only [planOf, Run.bind_gives_iff, checked_gives_iff, Run.pure_gives_iff, and_assoc, exists_and_left,
    exists_eq_left']
  refine exists_congr fun base => ⟨?_, ?_⟩
  · rintro ⟨between, first, range, ranged, symbols, listed, made, rfl⟩
    exact ⟨first, range, ranged, symbols, listed, made⟩
  · rintro ⟨first, range, ranged, symbols, listed, made⟩
    exact ⟨after, first, range, ranged, symbols, listed, made, rfl⟩

private theorem says_of_rangeOf {asked : Option (String × String)} {range range' : Option DateRange}
    (first_asked : Says Timestamp.ofText? (asked.map Prod.fst) (range.bind (·.first)))
    (last_asked : Says Timestamp.endOfText? (asked.map Prod.snd) (range.bind (·.last)))
    (ranged : rangeOf arguments range = .ok range') :
    Says Timestamp.ofText? (arguments.start.or (if arguments.stop.isSome then none else asked.map Prod.fst))
        (range'.bind (·.first)) ∧
      Says Timestamp.endOfText? (arguments.stop.or (if arguments.start.isSome then none else asked.map Prod.snd))
        (range'.bind (·.last)) := by
  obtain ⟨config, filter, symbols, start, stop, order, explain, output⟩ := arguments
  cases start with
  | none =>
    cases stop with
    | none =>
      cases ranged
      exact ⟨first_asked, last_asked⟩
    | some last =>
      obtain ⟨flagged, made, rfl⟩ := map_eq_ok_iff.1 ranged
      exact says_of_ofText made
  | some first =>
    obtain ⟨flagged, made, rfl⟩ := map_eq_ok_iff.1 ranged
    cases stop <;> exact says_of_ofText made

theorem says_of_symbolsOf {asked symbols : Option (List String)}
    (listed : symbolsOf arguments asked = .ok symbols) :
    ∃ flagged, Says (fun list => (Universe.ofText list).toOption) arguments.symbols flagged ∧
      symbols = flagged.or asked := by
  unfold symbolsOf at listed
  split at listed
  · rename_i absent
    cases listed
    exact ⟨none, absent ▸ rfl, rfl⟩
  · rename_i list present
    split at listed
    · rename_i flagged read
      cases listed
      refine ⟨some flagged, ?_, rfl⟩
      rw [present, says_some_iff]
      exact ⟨flagged, toOption_eq_some_iff.2 read, rfl⟩
    · cases listed

/-- The order of a plan is that of its flag, else of the request, else of the settings, and the symbols are those of their
flag, else of the request. Each bound on the dates is that of its flag, else of the request, unless the request gives
dates and only the other bound has a flag; then it is open. -/
theorem settled_by_precedence (given : (planOf arguments lookup settings).Gives before plan after) :
    ∃ request, arguments.filter.Brings before.files request ∧
      plan.options.order = (arguments.order.or (request.bind Request.order)).getD settings.order ∧
      (∃ flagged, Says (fun list => (Universe.ofText list).toOption) arguments.symbols flagged ∧
        plan.symbols = flagged.or (request.bind Request.targets)) ∧
      BoundSettled Timestamp.ofText? arguments.start arguments.stop ((request.bind Request.dates).map Prod.fst)
        plan.first? ∧
      BoundSettled Timestamp.endOfText? arguments.stop arguments.start ((request.bind Request.dates).map Prod.snd)
        plan.last? := by
  obtain ⟨base, based, range, ranged, symbols, listed, rfl⟩ := planOf_gives_iff.1 given
  obtain ⟨request, brought, order, targets, first_asked, last_asked⟩ := basis_settles based
  obtain ⟨first, last⟩ := says_of_rangeOf first_asked last_asked ranged
  obtain ⟨flagged, read, rfl⟩ := says_of_symbolsOf listed
  refine ⟨request, brought, ?_, ⟨flagged, read, by rw [targets]⟩, bound_settled first, bound_settled last⟩
  rw [order]
  cases arguments.order <;> rfl

end

namespace Sample

def document : Json.Value :=
  .object [("filter", Filter.comparingDocument "close"), ("date_range", .array [.text "2025-03-01", .text "2025-03-31"]),
    ("order", .text "asc"), ("symbols", .array [.text "A", .text " a"])]

def files : Files :=
  ⟨[(["settings.ini"], .text "[data]\ncsv_dir = bars"), (["request.json"], .text document.compact),
    (["bars", "A.csv"], .text "date,open,high,low,close,volume\n2025-03-15,1,1,1,1,1\n")]⟩

def arguments (symbols start stop : Option String) : ScanArguments :=
  ⟨"settings.ini", .request "request.json", symbols, start, stop, none, false, none⟩

def day (n : Nat) (inside : 1 ≤ n ∧ n ≤ 31) : Calendar.Date := ⟨2025, 3, n, by decide, by decide, inside⟩

def march : DateRange := ⟨some ⟨day 1 (by decide), .midnight⟩, some ⟨day 31 (by decide), .endOfDay⟩⟩

theorem ofText_document : ∃ request filter bars, Request.ofText document.compact = .ok request ∧
    request.expression = .ok filter ∧ Directory.bars files "bars" "A" = .ok bars ∧
    request.dates = some ("2025-03-01", "2025-03-31") ∧ request.symbols = some ["A", " a"] ∧
    (Scan.scanSymbol filter { order := request.order.getD .descending, range := some march } false
      (.ofBars "A" .daily bars)).matches?.map (·.index) = [0] := by
  have computed : ((Request.ofText document.compact).toOption.bind fun request =>
      request.expression.toOption.bind fun filter => (Directory.bars files "bars" "A").toOption.map fun bars =>
        (request.dates, request.symbols,
          (Scan.scanSymbol filter { order := request.order.getD .descending, range := some march } false
            (.ofBars "A" .daily bars)).matches?.map (·.index))) =
      some (some ("2025-03-01", "2025-03-31"), some ["A", " a"], [0]) := by
    -- the characters of a document are computed, but not those of its text
    rw [Request.ofText, Json.read, Json.Value.compact, String.toList_ofList]
    decide +kernel
  obtain ⟨request, read, computed⟩ := Option.bind_eq_some_iff.1 computed
  obtain ⟨filter, checked, computed⟩ := Option.bind_eq_some_iff.1 computed
  obtain ⟨bars, loaded, computed⟩ := Option.map_eq_some_iff.1 computed
  obtain ⟨dates, rest⟩ := Prod.mk.inj computed
  obtain ⟨symbols, found⟩ := Prod.mk.inj rest
  exact ⟨request, filter, bars, toOption_eq_some_iff.1 read, toOption_eq_some_iff.1 checked, toOption_eq_some_iff.1 loaded,
    dates, symbols, found⟩

theorem planOf_document {request : Request} {filter : Filter.Expression}
    (read : Request.ofText document.compact = .ok request) (checked : request.expression = .ok filter)
    (dates : request.dates = some ("2025-03-01", "2025-03-31")) (symbols start stop : Option String)
    {range : Option DateRange} (ranged : rangeOf (arguments symbols start stop) (some march) = .ok range)
    {targets : Option (List String)} (listed : symbolsOf (arguments symbols start stop) request.targets = .ok targets)
    (lookup : Lookup) (settings : ScanSettings) :
    (planOf (arguments symbols start stop) lookup settings).Gives ⟨"", "", files⟩
      ⟨filter, { order := request.order.getD settings.order, range }, targets⟩ ⟨"", "", files⟩ := by
  have options : request.options settings.order =
      .ok { order := request.order.getD settings.order, range := some march } := by
    rw [Request.options, dates]
    rfl
  have based : (basis lookup settings (.request "request.json")).Gives ⟨"", "", files⟩
      ⟨filter, { order := request.order.getD settings.order, range := some march }, request.targets⟩ ⟨"", "", files⟩ :=
    basis_request_gives_iff.2 ⟨document.compact, rfl, request, read, filter, checked, _, options, rfl, rfl⟩
  exact planOf_gives_iff.2 ⟨_, based, range, ranged, targets, listed, rfl⟩

end Sample

theorem settled_by_precedence_sample : ∃ plan,
    (planOf (Sample.arguments (some " c") (some "2025-03-10") (some "2025-03-20")) (fun _ _ => none)
        Plan.Sample.settings).Gives ⟨"", "", Sample.files⟩ plan ⟨"", "", Sample.files⟩ ∧
      plan.symbols = some ["C"] ∧ Says Timestamp.ofText? (some "2025-03-10") plan.first? ∧
      Says Timestamp.endOfText? (some "2025-03-20") plan.last? := by
  obtain ⟨request, filter, _, read, checked, -, dates, -, -⟩ := Sample.ofText_document
  have ranged : rangeOf (Sample.arguments (some " c") (some "2025-03-10") (some "2025-03-20")) (some Sample.march) =
      .ok (some ⟨some ⟨Sample.day 10 (by decide), .midnight⟩, some ⟨Sample.day 20 (by decide), .endOfDay⟩⟩) := rfl
  have listed : symbolsOf (Sample.arguments (some " c") (some "2025-03-10") (some "2025-03-20")) request.targets =
      .ok (some ["C"]) := rfl
  have given := Sample.planOf_document read checked dates _ _ _ ranged listed (fun _ _ => none) Plan.Sample.settings
  obtain ⟨_, -, -, -, first, last⟩ := settled_by_precedence given
  exact ⟨_, given, rfl, first.says_iff.2 (.inl rfl), last.says_iff.2 (.inl rfl)⟩

/-- The last day of a request does not bound the plan if the command line gives a first day. -/
theorem exists_bound_put_aside : ∃ arguments lookup settings before plan after request,
    (planOf arguments lookup settings).Gives before plan after ∧ arguments.filter.Brings before.files (some request) ∧
      arguments.start = some "2025-03-10" ∧ arguments.stop = none ∧ request.dates = some ("2025-03-01", "2025-03-31") ∧
      plan.last? = none ∧ ¬ Says Timestamp.endOfText? (arguments.stop.or (request.dates.map Prod.snd)) plan.last? := by
  obtain ⟨request, filter, _, read, checked, -, dates, -, -⟩ := Sample.ofText_document
  have ranged : rangeOf (Sample.arguments none (some "2025-03-10") none) (some Sample.march) =
      .ok (some ⟨some ⟨Sample.day 10 (by decide), .midnight⟩, none⟩) := rfl
  have given := Sample.planOf_document read checked dates _ _ _ ranged rfl (fun _ _ => none) Plan.Sample.settings
  refine ⟨_, _, _, _, _, _, request, given, .request rfl read, rfl, rfl, dates, rfl, ?_⟩
  rw [dates]
  intro said
  obtain ⟨_, -, bounded⟩ := says_some_iff.1 said
  cases bounded

end Command
end Screener
