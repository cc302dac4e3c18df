import Screener.Proofs.Except
import Screener.Proofs.Settings.Values
import Screener.Proofs.Universe

/-! The rules for the keys of a scan. A key that is missing has a standard value; the text of one that is there has to say
something. What reads a key keeps its rule: it gives the value that the rule gives, or fails with the name of the key. -/
namespace Screener.Settings
variable {α : Type}

/-- Every value that can be looked up has text in it and no blanks around it. -/
def Lookup.Trimmed (lookup : Lookup) : Prop :=
  ∀ group key text, lookup group key = some text → text ≠ "" ∧ Text.trim text = text

theorem Ini.trimmed_lookup (ini : Ini) : ini.lookup.Trimmed := by
  intro group key text found
  obtain ⟨raw, -, kept⟩ := Option.bind_eq_some_iff.1 found
  simp only at kept
  split at kept
  · cases kept
  · rename_i solid
    obtain rfl := Option.some.inj kept
    exact ⟨fun blank => solid (by rw [blank]; rfl), Text.trim_trim raw⟩

/-- What may stand under a key, and what stands in for it if the key is missing. -/
structure Rule (α : Type) where
  group : String
  key : String
  means : String → α → Prop
  standard : α

/-- The value under a rule: the standard one if the key is missing, else what its text says. -/
def Rule.Gives (rule : Rule α) (lookup : Lookup) (value : α) : Prop :=
  match lookup rule.group rule.key with
  | none => value = rule.standard
  | some text => rule.means text value

structure Check where
  group : String
  key : String
  admits : String → Prop

def Rule.check (rule : Rule α) : Check := ⟨rule.group, rule.key, fun text => ∃ value, rule.means text value⟩

/-- The key is missing or its text is one that is admitted. -/
def Check.Passes (check : Check) (lookup : Lookup) : Prop :=
  ∀ text, lookup check.group check.key = some text → check.admits text

theorem Rule.passes_iff (rule : Rule α) (lookup : Lookup) : rule.check.Passes lookup ↔ ∃ value, rule.Gives lookup value := by
  unfold Check.Passes Gives
  cases found : lookup rule.group rule.key with
  | none => simp [check, found]
  | some text => simp [check, found]

/-- A number from a least to a greatest one, written out. -/
def MeansCount (least most : Nat) (text : String) (n : Nat) : Prop := WritesInteger text n ∧ least ≤ n ∧ n ≤ most

/-- Symbols between commas. None is blank, and no two are the same but for blanks around them and their case. -/
def MeansSymbols (text : String) (symbols : Option (List String)) : Prop :=
  symbols = some ((Universe.tokens text).map Universe.standardForm) ∧ (∀ token ∈ Universe.tokens text, Text.trim token ≠ "") ∧
    ((Universe.tokens text).map Universe.standardForm).Nodup

def sourceRule : Rule DataSource where
  group := "data"
  key := "source"
  means := MeansWord [("csv", .directory), ("sqlite", .database)]
  standard := .directory

def baseRule : Rule Timeframe where
  group := "data"
  key := "base_timeframe"
  means := MeansWord [("intraday", .intraday), ("daily", .daily), ("weekly", .weekly)]
  standard := .daily

def poolSizeRule : Rule Nat where
  group := "sqlite"
  key := "pool_size"
  means := MeansCount 1 64
  standard := 4

def parallelRule : Rule Bool where
  group := "scan"
  key := "parallel"
  means := MeansWord booleanWords
  standard := true

def threadsRule : Rule Nat where
  group := "scan"
  key := "threads"
  means := MeansCount 0 1024
  standard := 0

def orderRule : Rule Scan.Order where
  group := "scan"
  key := "order"
  means := MeansWord [("asc", .ascending), ("desc", .descending)]
  standard := .descending

def symbolsRule : Rule (Option (List String)) where
  group := "scan"
  key := "symbols"
  means := MeansSymbols
  standard := none

def levelRule : Rule String where
  group := "logging"
  key := "level"
  means := MeansWord [("trace", "trace"), ("debug", "debug"), ("info", "info"), ("warn", "warn"), ("error", "error")]
  standard := "info"

def formatRule : Rule LogFormat where
  group := "logging"
  key := "format"
  means := MeansWord [("text", .text), ("json", .json)]
  standard := .text

def checks : List Check :=
  [sourceRule.check, baseRule.check, poolSizeRule.check, parallelRule.check, threadsRule.check, orderRule.check,
    symbolsRule.check, levelRule.check, formatRule.check]

/-- What is read is what the rule gives, and a failure to read names the key of the rule. -/
structure Rule.ReadBy (rule : Rule α) (read : Lookup → Except Failure α) : Prop where
  ok_iff : ∀ {lookup : Lookup} {value : α}, lookup.Trimmed → (read lookup = .ok value ↔ rule.Gives lookup value)
  names : ∀ {lookup : Lookup} {failure : Failure}, lookup.Trimmed → read lookup = .error failure →
    ∃ fault, failure = .configInvalid rule.group rule.key fault

theorem Rule.ReadBy.unique {rule : Rule α} {read : Lookup → Except Failure α} (reads : rule.ReadBy read) {lookup : Lookup}
    (trimmed : lookup.Trimmed) {x y : α} (one : rule.Gives lookup x) (other : rule.Gives lookup y) : x = y :=
  Except.ok.inj (((reads.ok_iff trimmed).2 one).symm.trans ((reads.ok_iff trimmed).2 other))

theorem located_eq_ok_iff {group key : String} {value : Except SettingFault α} {x : α} :
    located group key value = .ok x ↔ value = .ok x := by
  cases value with
  | error fault => exact ⟨fun read => (nomatch read), fun read => (nomatch read)⟩
  | ok y => exact Iff.of_eq (by rw [located, Except.mapError, Except.ok.injEq, Except.ok.injEq])

private theorem names_of_located {group key : String} {value : Except SettingFault α} {failure : Failure}
    (failed : located group key value = .error failure) : ∃ fault, failure = .configInvalid group key fault := by
  cases value with
  | error fault => exact ⟨fault, (Except.error.inj failed).symm⟩
  | ok x => cases failed

theorem Rule.readBy_located {rule : Rule α} {read : Lookup → Except SettingFault α}
    (ok_iff : ∀ {lookup : Lookup} {value : α}, lookup.Trimmed → (read lookup = .ok value ↔ rule.Gives lookup value)) :
    rule.ReadBy fun lookup => located rule.group rule.key (read lookup) where
  ok_iff trimmed := located_eq_ok_iff.trans (ok_iff trimmed)
  names _ failed := names_of_located failed

theorem chosen_eq_ok_iff {kind expected : String} {ofName? : String → Option α} {text : String} {x : α} :
    chosen (Text.choose kind expected ofName? text) = .ok x ↔ ofName? (Text.lowerAscii (Text.trim text)) = some x := by
  unfold Text.choose
  simp only
  split
  · rename_i choice found
    rw [found, Option.some.injEq]
    exact (Except.ok.injEq choice x).to_iff
  · rename_i unknown
    rw [unknown]
    exact ⟨fun read => (nomatch read), fun read => (nomatch read)⟩

def wordOf (rule : Rule α) (kind expected : String) (ofName? : String → Option α) (word : String) (lookup : Lookup) :
    Except Failure α :=
  located rule.group rule.key (chosen (Text.choose kind expected ofName? (lookup.text rule.group rule.key word)))

private theorem readBy_wordOf {rule : Rule α} {words : List (String × α)} {ofName? : String → Option α} {word : String}
    (meaning : rule.means = MeansWord words) (known : ∀ {w x}, ofName? w = some x ↔ (w, x) ∈ words)
    (standard : ofName? (Text.lowerAscii (Text.trim word)) = some rule.standard) (kind expected : String) :
    rule.ReadBy (wordOf rule kind expected ofName? word) := by
  refine rule.readBy_located fun {lookup value} trimmed => ?_
  rw [chosen_eq_ok_iff, Lookup.text, Rule.Gives]
  cases found : lookup rule.group rule.key with
  | none =>
    rw [Option.getD_none, standard, Option.some.injEq]
    exact eq_comm
  | some text =>
    rw [Option.getD_some, (trimmed _ _ _ found).2, known, meaning]
    exact Iff.rfl

theorem readBy_base : baseRule.ReadBy (wordOf baseRule "timeframe" "daily, weekly or intraday" Timeframe.ofName? "daily") :=
  readBy_wordOf rfl (find?_name_eq_some_iff (by decide)) (by decide +kernel) _ _

theorem readBy_order : orderRule.ReadBy (wordOf orderRule "order" "asc or desc" Scan.Order.ofName? "desc") :=
  readBy_wordOf rfl (find?_name_eq_some_iff (by decide)) (by decide +kernel) _ _

def level? (word : String) : Option String := logLevels.find? fun level => level == word

def levelOf (lookup : Lookup) : Except Failure String :=
  wordOf levelRule "level" ("one of " ++ ", ".intercalate logLevels) level? "info" lookup

theorem readBy_level : levelRule.ReadBy levelOf :=
  readBy_wordOf rfl (@find?_name_eq_some_iff String id logLevels (by decide)) (by decide +kernel) _ _

def formatOf (lookup : Lookup) : Except Failure LogFormat :=
  wordOf formatRule "log format" "text or json" LogFormat.ofName? "text" lookup

theorem readBy_format : formatRule.ReadBy formatOf :=
  readBy_wordOf rfl (find?_name_eq_some_iff (by decide)) (by decide +kernel) _ _

private theorem trim_text {lookup : Lookup} (trimmed : lookup.Trimmed) (group key : String) {standard : String}
    (solid : Text.trim standard = standard) : Text.trim (lookup.text group key standard) = lookup.text group key standard := by
  unfold Lookup.text
  cases found : lookup group key with
  | none => exact solid
  | some text => exact (trimmed _ _ _ found).2

private theorem sourceOf_eq {lookup : Lookup} (trimmed : lookup.Trimmed) :
    sourceOf lookup = wordOf sourceRule "source" "csv or sqlite" DataSource.ofName? "csv" lookup := by
  have solid := trim_text trimmed "data" "source" (by decide +kernel : Text.trim "csv" = "csv")
  unfold sourceOf wordOf Text.choose
  simp only [sourceRule, solid]
  cases DataSource.ofName? (Text.lowerAscii (lookup.text "data" "source" "csv")) <;> rfl

theorem readBy_source : sourceRule.ReadBy sourceOf where
  ok_iff trimmed := by
    rw [sourceOf_eq trimmed]
    exact (readBy_wordOf rfl (find?_name_eq_some_iff (by decide)) (by decide +kernel) _ _).ok_iff trimmed
  names trimmed failed := by
    rw [sourceOf_eq trimmed] at failed
    exact names_of_located failed

theorem logging_eq {lookup : Lookup} (trimmed : lookup.Trimmed) : Logging.ofLookup lookup = do
    let level ← levelOf lookup
    let format ← formatOf lookup
    return ⟨level, format⟩ := by
  have solid := trim_text trimmed "logging" "level" (by decide +kernel : Text.trim "info" = "info")
  have then_format : located "logging" "format" (chosen (LogFormat.ofSetting (lookup.text "logging" "format" "text"))) =
      formatOf lookup := rfl
  unfold Logging.ofLookup levelOf wordOf Text.choose
  simp only [levelRule, solid, then_format]
  generalize Text.lowerAscii (lookup.text "logging" "level" "info") = word
  generalize formatOf lookup = format
  by_cases known : word ∈ logLevels
  · have found : level? word = some word :=
      (@find?_name_eq_some_iff String id logLevels (by decide) word word).2 (List.mem_map.2 ⟨word, known, rfl⟩)
    rw [if_pos (List.contains_iff_mem.2 known), found]
    rfl
  · have absent : level? word = none :=
      List.find?_eq_none.2 fun level listed same => known (beq_iff_eq.1 same ▸ listed)
    rw [if_neg (known ∘ List.contains_iff_mem.1), absent]
    rfl

theorem readBy_parallel :
    parallelRule.ReadBy fun lookup => located "scan" "parallel" (lookup.boolean "scan" "parallel" true) := by
  refine parallelRule.readBy_located fun {lookup value} _ => ?_
  rw [Lookup.boolean, Rule.Gives]
  change _ ↔ match lookup "scan" "parallel" with
    | none => value = true
    | some text => parallelRule.means text value
  cases lookup "scan" "parallel" with
  | none => exact (Except.ok.injEq true value).to_iff.trans eq_comm
  | some text =>
    refine Iff.trans ?_ boolean?_eq_some_iff
    simp only
    cases boolean? text <;> simp

theorem readBy_symbols : symbolsRule.ReadBy symbolsOf where
  ok_iff {lookup value} _ := by
    change _ ↔ match lookup "scan" "symbols" with
      | none => value = none
      | some text => MeansSymbols text value
    unfold symbolsOf
    cases lookup "scan" "symbols" with
    | none => exact (Except.ok.injEq none value).to_iff.trans eq_comm
    | some text =>
      simp only [located_eq_ok_iff, map_eq_ok_iff]
      have read {symbols : List String} : (Universe.ofText text).mapError SettingFault.symbolList = .ok symbols ↔
          Universe.ofText text = .ok symbols := by
        cases Universe.ofText text <;> simp [Except.mapError]
      constructor
      · rintro ⟨symbols, listed, rfl⟩
        obtain ⟨rfl, solid, distinct⟩ := Universe.ofText_eq_ok_iff.1 (read.1 listed)
        exact ⟨rfl, solid, distinct⟩
      · rintro ⟨rfl, solid, distinct⟩
        exact ⟨_, read.2 (Universe.ofText_eq_ok_iff.2 ⟨rfl, solid, distinct⟩), rfl⟩
  names {lookup failure} _ failed := by
    unfold symbolsOf at failed
    cases found : lookup "scan" "symbols" with
    | none =>
      rw [found] at failed
      cases failed
    | some text =>
      rw [found] at failed
      exact names_of_located failed

theorem integer_eq_ok_iff {lookup : Lookup} {group key : String} {standard n : Int} :
    lookup.integer group key standard = .ok n ↔ match lookup group key with
      | none => n = standard
      | some text => WritesInteger text n ∧ -2 ^ 63 ≤ n ∧ n < 2 ^ 63 := by
  unfold Lookup.integer
  cases lookup group key with
  | none => exact (Except.ok.injEq standard n).to_iff.trans eq_comm
  | some text =>
    simp only [← integer?_eq_some_iff]
    cases integer? text <;> simp

theorem bounded_eq_ok_iff {lookup : Lookup} {group key : String} {standard : Int} {least most n : Nat} :
    bounded lookup group key standard least most = .ok n ↔
      lookup.integer group key standard = .ok (n : Int) ∧ least ≤ n ∧ n ≤ most := by
  have kept (z : Int) : (if (least : Int) ≤ z ∧ z ≤ most then Except.ok z.toNat
      else .error (Failure.configInvalid group key (.outOfRange key least most))) = .ok n ↔
        z = n ∧ least ≤ n ∧ n ≤ most := by
    split
    · rw [Except.ok.injEq]
      omega
    · refine ⟨fun refused => (nomatch refused), fun ⟨same, bounds⟩ => ?_⟩
      omega
  simp only [bounded, bind_eq_ok_iff, located_eq_ok_iff, kept]
  constructor
  · rintro ⟨z, read, rfl, inside⟩
    exact ⟨read, inside⟩
  · rintro ⟨read, inside⟩
    exact ⟨n, read, rfl, inside⟩

private theorem readBy_bounded {rule : Rule Nat} {least most : Nat} (meaning : rule.means = MeansCount least most)
    (inside : least ≤ rule.standard ∧ rule.standard ≤ most) (fits : (most : Int) < 2 ^ 63) :
    rule.ReadBy fun lookup => bounded lookup rule.group rule.key rule.standard least most where
  ok_iff {lookup n} _ := by
    rw [bounded_eq_ok_iff, integer_eq_ok_iff, Rule.Gives, meaning]
    cases lookup rule.group rule.key with
    | none =>
      simp only [Int.natCast_inj]
      refine and_iff_left_of_imp ?_
      rintro rfl
      exact inside
    | some text =>
      simp only [MeansCount]
      refine ⟨fun ⟨⟨written, _⟩, bounds⟩ => ⟨written, bounds⟩, fun ⟨written, bounds⟩ => ⟨⟨written, ?_⟩, bounds⟩⟩
      omega
  names {lookup failure} _ failed := by
    rcases bind_eq_error_iff.1 failed with unread | ⟨n, -, outside⟩
    · exact names_of_located unread
    · split at outside
      · cases outside
      · exact ⟨_, (Except.error.inj outside).symm⟩

theorem readBy_poolSize : poolSizeRule.ReadBy poolSizeOf :=
  readBy_bounded rfl (by decide) (by decide)

theorem readBy_threads : threadsRule.ReadBy fun lookup => bounded lookup "scan" "threads" 0 0 mostThreads :=
  readBy_bounded rfl (by decide) (by decide)

end Screener.Settings
