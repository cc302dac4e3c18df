import Screener.Proofs.Settings.Rules

/-! The settings of a scan as a whole. They are there if every key keeps its rule and the data of the source can be
located, and then each of them is the value under its rule. Else the failure names a key that breaks its rule or that the
source needs and is missing. -/
namespace Screener.Settings
variable {α : Type} {lookup : Lookup}

def DataSource.location : DataSource → String × String
  | .directory => ("data", "csv_dir")
  | .database => ("sqlite", "path")

def DataSource.locationIn (source : DataSource) (lookup : Lookup) : Option String :=
  lookup source.location.1 source.location.2

/-- Every text under a key is one that its rule admits, and the source has the key that locates its data. -/
structure Acceptable (lookup : Lookup) : Prop where
  valid : ∀ check ∈ checks, check.Passes lookup
  located : ∀ source, sourceRule.Gives lookup source → (source.locationIn lookup).isSome

/-- Each setting is the value under its rule, and the data of the source can be located. -/
structure Settled (lookup : Lookup) (settings : ScanSettings) : Prop where
  source : sourceRule.Gives lookup settings.source
  directory : settings.directory = lookup "data" "csv_dir"
  base : baseRule.Gives lookup settings.base
  database : settings.database = lookup "sqlite" "path"
  poolSize : poolSizeRule.Gives lookup settings.poolSize
  parallel : parallelRule.Gives lookup settings.parallel
  threads : threadsRule.Gives lookup settings.threads
  order : orderRule.Gives lookup settings.order
  symbols : symbolsRule.Gives lookup settings.symbols
  level : levelRule.Gives lookup settings.logging.level
  format : formatRule.Gives lookup settings.logging.format
  located : (settings.source.locationIn lookup).isSome

/-- The failure names a key that is at fault itself: its text is not admitted, or the source needs it and it is missing. -/
inductive Blames (lookup : Lookup) : Failure → Prop
  | invalid {check : Check} {text : String} (asked : check ∈ checks) (found : lookup check.group check.key = some text)
      (refused : ¬ check.admits text) (fault : SettingFault) : Blames lookup (.configInvalid check.group check.key fault)
  | missing {source : DataSource} (chosen : sourceRule.Gives lookup source) (absent : source.locationIn lookup = none) :
      Blames lookup (.configMissing source.location.1 source.location.2)

theorem demanded_eq_ok_iff {needed : Bool} {group key : String} {value : Option String} {u : Unit} :
    demanded needed group key value = .ok u ↔ (needed = true → value.isSome) := by
  unfold demanded
  cases needed <;> cases value <;> simp

theorem demanded_eq_error_iff {needed : Bool} {group key : String} {value : Option String} {failure : Failure} :
    demanded needed group key value = .error failure ↔
      needed = true ∧ value = none ∧ failure = .configMissing group key := by
  unfold demanded
  cases needed <;> cases value <;> simp [eq_comm]

theorem located_iff {source : DataSource} : (source.locationIn lookup).isSome ↔
    ((source == .directory) = true → (lookup "data" "csv_dir").isSome) ∧
      ((source == .database) = true → (lookup "sqlite" "path").isSome) := by
  cases source <;> simp [DataSource.locationIn, DataSource.location]

theorem logging_eq_ok_iff (trimmed : lookup.Trimmed) {logging : Logging} :
    Logging.ofLookup lookup = .ok logging ↔
    levelRule.Gives lookup logging.level ∧ formatRule.Gives lookup logging.format := by
  rw [logging_eq trimmed]
  simp only [bind_eq_ok_iff, readBy_level.ok_iff trimmed, readBy_format.ok_iff trimmed]
  constructor
  · rintro ⟨level, known, format, clear, same⟩
    obtain rfl := Except.ok.inj same
    exact ⟨known, clear⟩
  · rintro ⟨known, clear⟩
    exact ⟨_, known, _, clear, rfl⟩

/-- Settings are read if they are settled, and none but those. -/
theorem ofLookup_eq_ok_iff (trimmed : lookup.Trimmed) {settings : ScanSettings} :
    ScanSettings.ofLookup lookup = .ok settings ↔ Settled lookup settings := by
  constructor
  · intro read
    obtain ⟨source, sourced, read⟩ := bind_eq_ok_iff.1 read
    obtain ⟨_, directed, read⟩ := bind_eq_ok_iff.1 read
    obtain ⟨base, based, read⟩ := bind_eq_ok_iff.1 read
    obtain ⟨_, stored, read⟩ := bind_eq_ok_iff.1 read
    obtain ⟨poolSize, pooled, read⟩ := bind_eq_ok_iff.1 read
    obtain ⟨parallel, split, read⟩ := bind_eq_ok_iff.1 read
    obtain ⟨threads, threaded, read⟩ := bind_eq_ok_iff.1 read
    obtain ⟨order, ordered, read⟩ := bind_eq_ok_iff.1 read
    obtain ⟨symbols, listed, read⟩ := bind_eq_ok_iff.1 read
    obtain ⟨logging, logged, read⟩ := bind_eq_ok_iff.1 read
    obtain rfl := Except.ok.inj read
    obtain ⟨level, format⟩ := (logging_eq_ok_iff trimmed).1 logged
    exact {
      source := (readBy_source.ok_iff trimmed).1 sourced
      directory := rfl
      base := (readBy_base.ok_iff trimmed).1 based
      database := rfl
      poolSize := (readBy_poolSize.ok_iff trimmed).1 pooled
      parallel := (readBy_parallel.ok_iff trimmed).1 split
      threads := (readBy_threads.ok_iff trimmed).1 threaded
      order := (readBy_order.ok_iff trimmed).1 ordered
      symbols := (readBy_symbols.ok_iff trimmed).1 listed
      level, format
      located := located_iff.2 ⟨demanded_eq_ok_iff.1 directed, demanded_eq_ok_iff.1 stored⟩ }
  · intro settled
    obtain ⟨directed, stored⟩ := located_iff.1 settled.located
    refine bind_eq_ok_iff.2 ⟨_, (readBy_source.ok_iff trimmed).2 settled.source, ?_⟩
    refine bind_eq_ok_iff.2 ⟨(), demanded_eq_ok_iff.2 directed, ?_⟩
    refine bind_eq_ok_iff.2 ⟨_, (readBy_base.ok_iff trimmed).2 settled.base, ?_⟩
    refine bind_eq_ok_iff.2 ⟨(), demanded_eq_ok_iff.2 stored, ?_⟩
    refine bind_eq_ok_iff.2 ⟨_, (readBy_poolSize.ok_iff trimmed).2 settled.poolSize, ?_⟩
    refine bind_eq_ok_iff.2 ⟨_, (readBy_parallel.ok_iff trimmed).2 settled.parallel, ?_⟩
    refine bind_eq_ok_iff.2 ⟨_, (readBy_threads.ok_iff trimmed).2 settled.threads, ?_⟩
    refine bind_eq_ok_iff.2 ⟨_, (readBy_order.ok_iff trimmed).2 settled.order, ?_⟩
    refine bind_eq_ok_iff.2 ⟨_, (readBy_symbols.ok_iff trimmed).2 settled.symbols, ?_⟩
    refine bind_eq_ok_iff.2 ⟨_, (logging_eq_ok_iff trimmed).2 ⟨settled.level, settled.format⟩, ?_⟩
    rw [← settled.directory, ← settled.database]
    rfl

theorem exists_settled_iff (trimmed : lookup.Trimmed) : (∃ settings, Settled lookup settings) ↔ Acceptable lookup := by
  constructor
  · rintro ⟨settings, settled⟩
    refine ⟨?_, fun source chosen => ?_⟩
    · simp only [checks, List.forall_mem_cons, Rule.passes_iff]
      exact ⟨⟨_, settled.source⟩, ⟨_, settled.base⟩, ⟨_, settled.poolSize⟩, ⟨_, settled.parallel⟩, ⟨_, settled.threads⟩,
        ⟨_, settled.order⟩, ⟨_, settled.symbols⟩, ⟨_, settled.level⟩, ⟨_, settled.format⟩, fun _ none_left => nomatch none_left⟩
    · obtain rfl : source = settings.source := readBy_source.unique trimmed chosen settled.source
      exact settled.located
  · rintro ⟨valid, located⟩
    simp only [checks, List.forall_mem_cons, Rule.passes_iff] at valid
    obtain ⟨⟨source, sourced⟩, ⟨base, based⟩, ⟨poolSize, pooled⟩, ⟨parallel, split⟩, ⟨threads, threaded⟩, ⟨order, ordered⟩,
      ⟨symbols, listed⟩, ⟨level, leveled⟩, ⟨format, formatted⟩, -⟩ := valid
    exact ⟨⟨source, lookup "data" "csv_dir", base, lookup "sqlite" "path", poolSize, parallel, threads, order, symbols,
      ⟨level, format⟩⟩, sourced, rfl, based, rfl, pooled, split, threaded, ordered, listed, leveled, formatted,
      located source sourced⟩

def Reports (lookup : Lookup) (result : Except Failure α) : Prop :=
  ∀ failure, result = .error failure → Blames lookup failure

private theorem reports_ok (x : α) : Reports lookup (.ok x) := fun _ failed => nomatch failed

private theorem reports_bind {β : Type} {first : Except Failure α} {next : α → Except Failure β}
    (one : Reports lookup first)
    (rest : ∀ x, first = .ok x → Reports lookup (next x)) : Reports lookup (first >>= next) := by
  intro failure failed
  rcases bind_eq_error_iff.1 failed with refused | ⟨x, read, failed⟩
  · exact one failure refused
  · exact rest x read failure failed

/-- A key that cannot be read breaks its rule, for a rule that is kept has a value, and that would be read. -/
theorem Rule.ReadBy.reports {rule : Rule α} {read : Lookup → Except Failure α} (reads : rule.ReadBy read)
    (trimmed : lookup.Trimmed) (asked : rule.check ∈ checks) : Reports lookup (read lookup) := by
  intro failure failed
  obtain ⟨fault, rfl⟩ := reads.names trimmed failed
  have broken : ¬ rule.check.Passes lookup := by
    intro passes
    obtain ⟨value, gives⟩ := (rule.passes_iff lookup).1 passes
    rw [(reads.ok_iff trimmed).2 gives] at failed
    cases failed
  obtain ⟨text, broken⟩ := not_forall.1 broken
  obtain ⟨found, refused⟩ := Classical.not_imp.1 broken
  exact .invalid asked found refused fault

private theorem reports_demanded {chosen : DataSource} (sourced : sourceRule.Gives lookup chosen)
    (source : DataSource) :
    Reports lookup (demanded (chosen == source) source.location.1 source.location.2 (source.locationIn lookup)) := by
  intro failure failed
  obtain ⟨needed, absent, rfl⟩ := demanded_eq_error_iff.1 failed
  obtain rfl := beq_iff_eq.1 needed
  exact .missing sourced absent

private theorem reports_logging (trimmed : lookup.Trimmed) : Reports lookup (Logging.ofLookup lookup) := by
  rw [logging_eq trimmed]
  refine reports_bind (readBy_level.reports trimmed (by simp [checks])) fun level _ => ?_
  refine reports_bind (readBy_format.reports trimmed (by simp [checks])) fun format _ => ?_
  exact reports_ok _

theorem reports_ofLookup (trimmed : lookup.Trimmed) : Reports lookup (ScanSettings.ofLookup lookup) := by
  refine reports_bind (readBy_source.reports trimmed (by simp [checks])) fun source read => ?_
  have sourced := (readBy_source.ok_iff trimmed).1 read
  refine reports_bind (reports_demanded sourced .directory) fun _ _ => ?_
  refine reports_bind (readBy_base.reports trimmed (by simp [checks])) fun base _ => ?_
  refine reports_bind (reports_demanded sourced .database) fun _ _ => ?_
  refine reports_bind (readBy_poolSize.reports trimmed (by simp [checks])) fun poolSize _ => ?_
  refine reports_bind (readBy_parallel.reports trimmed (by simp [checks])) fun parallel _ => ?_
  refine reports_bind (readBy_threads.reports trimmed (by simp [checks])) fun threads _ => ?_
  refine reports_bind (readBy_order.reports trimmed (by simp [checks])) fun order _ => ?_
  refine reports_bind (readBy_symbols.reports trimmed (by simp [checks])) fun symbols _ => ?_
  refine reports_bind (reports_logging trimmed) fun logging _ => ?_
  exact reports_ok _

end Screener.Settings
