import Screener.Proofs.Command.Keeping
import Screener.Proofs.Settings.Scan
import Mathlib.Algebra.Group.Nat.Defs

/-! The settings of a scan in use. A number in them is the one that was read, also where a smaller word keeps it, and the
source that they ask for can be opened without another look for what locates its data. -/
namespace Screener.Command
open Settings (Acceptable Blames Ini Lookup ScanSettings Settled)
variable {α β : Type} {before after : Effects} {failure : Failure} {lookup : Lookup} {settings : ScanSettings}

namespace Run

private theorem bind_fails_cases {step : Run α} {next : α → Run β}
    (failed : (step >>= next).Fails before failure after) :
    step.Fails before failure after ∨ ∃ x between, step.Gives before x between ∧ (next x).Fails between failure after := by
  rw [Fails, run_bind] at failed
  rcases done : step.run.run before with ⟨other | x, between⟩ <;> rw [done] at failed
  · cases failed
    exact .inl done
  · exact .inr ⟨x, between, done, failed⟩

private theorem not_pure_fails (x : α) : ¬ (pure x : Run α).Fails before failure after :=
  fun failed => nomatch congrArg Prod.fst failed

private theorem not_get_fails : ¬ (get : Run Effects).Fails before failure after :=
  fun failed => nomatch congrArg Prod.fst failed

private theorem not_modify_fails (change : Effects → Effects) :
    ¬ (modify change : Run Unit).Fails before failure after :=
  fun failed => nomatch congrArg Prod.fst failed

private theorem eq_of_throw_fails {other : Failure} (failed : (throw other : Run α).Fails before failure after) :
    failure = other :=
  (Except.error.inj (congrArg Prod.fst failed)).symm

private theorem eq_error_of_lift_fails {result : Except Failure α}
    (failed : (liftM result : Run α).Fails before failure after) : result = .error failure := by
  cases result with
  | error other => rw [eq_of_throw_fails failed]
  | ok x => exact absurd failed (not_pure_fails x)

end Run

private theorem eq_query_of_store {session : Session} {files : Files} (failed : session.store files = .error failure) :
    failure = .query := by
  unfold Session.store at failed
  repeat' split at failed
  all_goals cases failed
  all_goals rfl

private theorem eq_query_of_keep {session : Session} {store : Store} {files : Files}
    (failed : session.keep store files = .error failure) : failure = .query := by
  unfold Session.keep at failed
  repeat' split at failed
  all_goals cases failed
  rfl

private theorem eq_query_of_prepared {session : Session} {files : Files}
    (failed : session.prepared files = .error failure) : failure = .query := by
  rcases bind_eq_error_iff.1 failed with unread | ⟨store, -, failed⟩
  · exact eq_query_of_store unread
  split at failed
  · cases failed
  rcases bind_eq_error_iff.1 failed with unkept | ⟨files, -, failed⟩
  · exact eq_query_of_keep unkept
  · cases failed

private theorem openStore_fails {name : String} (failed : (openStore name).Fails before failure after) :
    failure = .query ∨ ∃ fault, failure = .data (.unopened name fault) := by
  rcases Run.bind_fails_cases failed with failed | ⟨effects, between, -, failed⟩
  · exact absurd failed Run.not_get_fails
  split at failed
  · exact .inr ⟨_, Run.eq_of_throw_fails failed⟩
  rcases Run.bind_fails_cases failed with failed | ⟨_, made, -, failed⟩
  · exact absurd failed (Run.not_modify_fails _)
  rcases Run.bind_fails_cases failed with failed | ⟨_, read, -, failed⟩
  · exact .inl (eq_query_of_prepared (Run.eq_error_of_lift_fails failed))
  rcases Run.bind_fails_cases failed with failed | ⟨_, left, -, failed⟩
  · exact absurd failed (Run.not_modify_fails _)
  · exact absurd failed (Run.not_pure_fails _)

/-- A source whose data can be located is not found to lack a key when it is opened. -/
theorem openSource_not_missing (settled : Settled lookup settings) (before : Effects) (group key : String)
    (after : Effects) : ¬ (openSource settings).Fails before (.configMissing group key) after := by
  have located := settled.located
  intro failed
  unfold openSource at failed
  cases chosen : settings.source with
  | directory =>
    rw [chosen] at located failed
    obtain ⟨directory, there⟩ := Option.isSome_iff_exists.1 located
    rw [settled.directory.trans there] at failed
    rcases Run.bind_fails_cases failed with failed | ⟨_, _, -, failed⟩
    · exact Run.not_get_fails failed
    · exact Run.not_pure_fails _ failed
  | database =>
    rw [chosen] at located failed
    obtain ⟨name, there⟩ := Option.isSome_iff_exists.1 located
    rw [settled.database.trans there] at failed
    rcases Run.bind_fails_cases failed with failed | ⟨_, _, -, failed⟩
    · rcases openStore_fails failed with query | ⟨fault, unopened⟩
      · cases query
      · cases unopened
    · exact Run.not_pure_fails _ failed

def narrowed (width : Nat) (n : Int) : Nat := ((BitVec.ofInt 64 n).setWidth width).toNat

private theorem narrowed_natCast {width n : Nat} (fits : n < 2 ^ width) (read : n < 2 ^ 64) : narrowed width n = n := by
  rw [narrowed, BitVec.ofInt_natCast, BitVec.toNat_setWidth, BitVec.toNat_ofNat, Nat.mod_eq_of_lt read,
    Nat.mod_eq_of_lt fits]

/-- The numbers among the settings are the ones that were read, and smaller words hold them. -/
structure Unaltered (lookup : Lookup) (settings : ScanSettings) : Prop where
  poolSize : ∃ n : Int, lookup.integer "sqlite" "pool_size" 4 = .ok n ∧ settings.poolSize = n ∧
    narrowed 32 n = settings.poolSize
  threads : ∃ n : Int, lookup.integer "scan" "threads" 0 = .ok n ∧ settings.threads = n ∧
    ∀ width, 16 ≤ width → narrowed width n = settings.threads

private theorem unaltered_of_settled (trimmed : lookup.Trimmed) (settled : Settled lookup settings) :
    Unaltered lookup settings where
  poolSize := by
    obtain ⟨read, -, most⟩ := Settings.bounded_eq_ok_iff.1 ((Settings.readBy_poolSize.ok_iff trimmed).2 settled.poolSize)
    have most : settings.poolSize ≤ 64 := most
    exact ⟨_, read, rfl, narrowed_natCast (by omega) (by omega)⟩
  threads := by
    obtain ⟨read, -, most⟩ := Settings.bounded_eq_ok_iff.1 ((Settings.readBy_threads.ok_iff trimmed).2 settled.threads)
    have most : settings.threads ≤ 1024 := most
    refine ⟨_, read, rfl, fun width wide => narrowed_natCast ?_ (by omega)⟩
    exact most.trans_lt (lt_of_lt_of_le (by decide : 1024 < 2 ^ 16) (Nat.pow_le_pow_right Nat.two_pos wide))

/-- Settings are read just if every text among them is admitted by the rule for its key and the source has the key that
locates its data. Then each setting is what its text says, or the standard value where there is no text. The numbers fit
the words that keep them, and opening the source finds no key missing. Else the failure names a key that is missing or
whose text is not admitted. -/
theorem settings_complete (trimmed : lookup.Trimmed) :
    ((∃ settings, ScanSettings.ofLookup lookup = .ok settings) ↔ Acceptable lookup) ∧
      (∀ settings, ScanSettings.ofLookup lookup = .ok settings → Settled lookup settings ∧ Unaltered lookup settings ∧
        ∀ before group key after, ¬ (openSource settings).Fails before (.configMissing group key) after) ∧
      ∀ failure, ScanSettings.ofLookup lookup = .error failure → Blames lookup failure := by
  refine ⟨?_, fun settings read => ?_, Settings.reports_ofLookup trimmed⟩
  · simp only [Settings.ofLookup_eq_ok_iff trimmed]
    exact Settings.exists_settled_iff trimmed
  · have settled := (Settings.ofLookup_eq_ok_iff trimmed).1 read
    exact ⟨settled, unaltered_of_settled trimmed settled, openSource_not_missing settled⟩

namespace Sample

def full : Ini := ⟨[⟨"data", "source", some "SQLite"⟩, ⟨"sqlite", "path", some " bars.db "⟩, ⟨"sqlite", "pool_size", some "+64"⟩,
  ⟨"scan", "parallel", some "Off"⟩, ⟨"scan", "symbols", some "a, b"⟩]⟩

def unlocated : Ini := ⟨[⟨"data", "source", some "sqlite"⟩, ⟨"data", "csv_dir", some "bars"⟩]⟩

def fullSettings : ScanSettings where
  source := .database
  directory := none
  base := .daily
  database := some "bars.db"
  poolSize := 64
  parallel := false
  threads := 0
  order := .descending
  symbols := some ["A", "B"]
  logging := ⟨"info", .text⟩

private theorem ofLookup_full : ScanSettings.ofLookup full.lookup = .ok fullSettings := by
  have computed : (ScanSettings.ofLookup full.lookup).toOption = some fullSettings := by decide +kernel
  exact toOption_eq_some_iff.1 computed

private theorem ofLookup_unlocated :
    ScanSettings.ofLookup unlocated.lookup = .error (.configMissing "sqlite" "path") := by
  rfl

end Sample

theorem settings_complete_sample :
    Sample.full.lookup.Trimmed ∧ Acceptable Sample.full.lookup ∧ Settled Sample.full.lookup Sample.fullSettings ∧
      Sample.unlocated.lookup.Trimmed ∧ Blames Sample.unlocated.lookup (.configMissing "sqlite" "path") := by
  have trimmed := Sample.full.trimmed_lookup
  obtain ⟨acceptable, settled, -⟩ := settings_complete trimmed
  obtain ⟨-, -, blames⟩ := settings_complete Sample.unlocated.trimmed_lookup
  exact ⟨trimmed, acceptable.1 ⟨_, Sample.ofLookup_full⟩, (settled _ Sample.ofLookup_full).1, Sample.unlocated.trimmed_lookup,
    blames _ Sample.ofLookup_unlocated⟩

end Screener.Command
