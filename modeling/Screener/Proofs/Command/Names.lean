import Screener.Proofs.Command.Shelf
import Screener.Proofs.Store.Filters

/-! What an argument of a command about saved filters stands for. A filter is saved under the argument without the blanks
around it, and under that name all commands find it until it is saved or deleted again. The other commands take their
argument as it is, so one with blanks around it, which can be saved under, finds nothing there. -/
namespace Screener.Command
open Settings (Lookup Logging StoreSettings Ini ScanSettings)
open Screener.Filter (Expression)
variable {config name : String} {e : Expression} {files : Files}

/-- No command finds a filter under the name: each is answered that there is none. -/
structure Unknown (config name : String) (files : Files) : Prop where
  shown : run (.filters config (.show name)) files =
    (6, ⟨"", "error: " ++ (Failure.noFilter name).message ++ "\n", files⟩)
  used : ∀ lookup settings, (readConfig config).Gives ⟨"", "", files⟩ lookup ⟨"", "", files⟩ →
    (basis lookup settings (.saved name)).Fails ⟨"", "", files⟩ (.noFilter name) ⟨"", "", files⟩
  deleted : ∃ left, run (.filters config (.delete name)) files =
    (6, ⟨"", "error: " ++ (Failure.noFilter name).message ++ "\n", left⟩)

/-- Every command takes the name for the filter: it is shown as its document, a scan goes by it, and deleting it leaves
the name without a filter. -/
structure Designates (config name : String) (e : Expression) (files : Files) : Prop where
  shown : run (.filters config (.show name)) files = (0, ⟨e.toJson.pretty ++ "\n", "", files⟩)
  used : ∀ lookup settings, (readConfig config).Gives ⟨"", "", files⟩ lookup ⟨"", "", files⟩ →
    (basis lookup settings (.saved name)).Gives ⟨"", "", files⟩ ⟨e, { order := settings.order }, none⟩ ⟨"", "", files⟩
  deleted : ∃ left, run (.filters config (.delete name)) files =
    (0, ⟨"", "Deleted filter '" ++ name ++ "'" ++ "\n", left⟩) ∧ Unknown config name left

section
variable {store : Store} {shelf : Shelf} {before after : Effects}

private theorem show_gives {saved : SavedFilter} (session : Session) (load : store.load name = .ok (some saved))
    (before : Effects) :
    (runAction session store (.show name)).Gives before ()
      { before with output := before.output ++ saved.filter.toJson.pretty ++ "\n" } :=
  Run.bind_gives_iff.2 ⟨some saved, before, Run.lift_gives_iff.2 ⟨load, rfl⟩, print_gives_iff.2 rfl⟩

private theorem show_fails (session : Session) (load : store.load name = .ok none) (before : Effects) :
    (runAction session store (.show name)).Fails before (.noFilter name) before :=
  (Run.bind_fails_iff (Run.lift_gives_iff.2 ⟨load, rfl⟩)).2 (Run.throw_fails _)

theorem save_gives_iff {session : Session} {path : String} :
    (runAction session store (.save name path)).Gives before () after ↔
    ∃ content, before.files.text? path = some content ∧ ∃ e, Expression.ofText content = .ok e ∧
      ∃ key, SavedFilter.nameOf name = .ok key ∧ store.ready ∧
        ∃ left, session.keep (store.putFilter key e.text) before.files = .ok left ∧
          { before with errors := before.errors ++ ("Saved filter '" ++ key ++ "'") ++ "\n", files := left } = after := by
  simp only [runAction, Run.bind_gives_iff, readFilter_gives_iff, Run.lift_gives_iff, keep_gives_iff, note_gives_iff,
    SavedFilter.ofExpression_eq_ok_iff, Store.save, Store.access]
  constructor
  · rintro ⟨e, _, ⟨content, there, parsed, rfl⟩, ⟨key, e'⟩, _, ⟨⟨accepted, rfl⟩, rfl⟩, next, _, ⟨put, rfl⟩, _, _,
      ⟨left, kept, rfl⟩, rfl⟩
    split at put
    · rename_i ready
      cases put
      exact ⟨content, there, _, parsed, key, accepted, ready, left, kept, rfl⟩
    · cases put
  · rintro ⟨content, there, e, parsed, key, accepted, ready, left, kept, rfl⟩
    exact ⟨e, _, ⟨content, there, parsed, rfl⟩, ⟨key, e⟩, _, ⟨⟨accepted, rfl⟩, rfl⟩, _, _, ⟨if_pos ready, rfl⟩, (), _,
      ⟨left, kept, rfl⟩, rfl⟩

private theorem delete_gives {next : Store} (delete : store.delete name = .ok (true, next)) (before : Effects) :
    (runAction shelf.session store (.delete name)).Gives before ()
      { before with
        errors := before.errors ++ ("Deleted filter '" ++ name ++ "'") ++ "\n"
        files := before.files.put shelf.place (.database next) } := by
  refine Run.bind_gives_iff.2 ⟨(true, next), before, Run.lift_gives_iff.2 ⟨delete, rfl⟩, ?_⟩
  exact Run.bind_gives_iff.2 ⟨(), _, shelf.keep next before, note_gives_iff.2 rfl⟩

private theorem delete_fails {next : Store} (delete : store.delete name = .ok (false, next)) (before : Effects) :
    (runAction shelf.session store (.delete name)).Fails before (.noFilter name)
      { before with files := before.files.put shelf.place (.database next) } := by
  refine (Run.bind_fails_iff (Run.lift_gives_iff.2 ⟨delete, rfl⟩)).2 ?_
  exact (Run.bind_fails_iff (shelf.keep next before)).2 (Run.throw_fails _)

end

namespace Shelf
variable {shelf : Shelf} {store : Store} {action : FilterAction} {before after : Effects}

namespace Holds

theorem readConfig (holds : shelf.Holds config store before.files) :
    (Command.readConfig config).Gives before shelf.lookup before := readConfig_gives_iff.2 ⟨holds.configured, rfl⟩

private theorem run_gives (holds : shelf.Holds config store files)
    (given : (runAction shelf.session store action).Gives ⟨"", "", files⟩ () after) :
    run (.filters config action) files = (0, after) := by
  have holds : shelf.Holds config store (Effects.mk "" "" files).files := holds
  obtain ⟨logging, logged⟩ := shelf.logged
  refine run_of_gives (Run.bind_gives_iff.2 ⟨_, _, holds.readConfig, ?_⟩)
  refine Run.bind_gives_iff.2 ⟨_, _, Run.lift_gives_iff.2 ⟨logged, rfl⟩, ?_⟩
  exact Run.bind_gives_iff.2 ⟨_, _, holds.openFilters, given⟩

private theorem run_fails {failure : Failure} (holds : shelf.Holds config store files)
    (failed : (runAction shelf.session store action).Fails ⟨"", "", files⟩ failure after) :
    run (.filters config action) files =
      (failure.exitCode, { after with errors := after.errors ++ "error: " ++ failure.message ++ "\n" }) := by
  have holds : shelf.Holds config store (Effects.mk "" "" files).files := holds
  obtain ⟨logging, logged⟩ := shelf.logged
  refine run_of_fails ((Run.bind_fails_iff holds.readConfig).2 ?_)
  exact (Run.bind_fails_iff (Run.lift_gives_iff.2 ⟨logged, rfl⟩)).2 ((Run.bind_fails_iff holds.openFilters).2 failed)

private theorem lookup_eq {lookup : Lookup} (holds : shelf.Holds config store before.files)
    (read : (Command.readConfig config).Gives before lookup after) : lookup = shelf.lookup :=
  Option.some.inj ((readConfig_gives_iff.1 read).1.symm.trans holds.configured)

end Holds

private theorem unknown_of_finds (finds : shelf.Finds config name none files) : Unknown config name files := by
  obtain ⟨store, holds, free⟩ := finds
  have load : store.load name = .ok none := by rw [Store.load, Store.access, if_pos holds.ready, free]
  have absent : store.filters.contains name = false := by rw [Dictionary.contains, free]; rfl
  have delete : store.delete name = .ok (false, { store with filters := store.filters.erase name }) := by
    rw [Store.delete, Store.access, if_pos holds.ready, absent]
  let left := files.put shelf.place (.database { store with filters := store.filters.erase name })
  refine ⟨?_, fun lookup settings read => ?_, left, ?_⟩
  · rw [holds.run_fails (show_fails _ load _), String.empty_append]
    rfl
  · have holds : shelf.Holds config store (Effects.mk "" "" files).files := holds
    obtain rfl := holds.lookup_eq read
    exact (Run.bind_fails_iff holds.openFilters).2 ((Run.bind_fails_iff (Run.lift_gives_iff.2 ⟨load, rfl⟩)).2 rfl)
  · rw [holds.run_fails (delete_fails delete _), String.empty_append]
    rfl

private theorem designates_of_finds (sound : (Store.FilterCall.save ⟨name, e⟩).IsSound)
    (finds : shelf.Finds config name (some e.text) files) : Designates config name e files := by
  obtain ⟨store, holds, entry⟩ := finds
  have load : store.load name = .ok (some ⟨name, e⟩) := by
    rw [Store.load, Store.access, if_pos holds.ready, entry]
    exact congrArg (Except.map some) (Store.ofText_of_sound sound)
  have present : store.filters.contains name = true := by rw [Dictionary.contains, entry]; rfl
  have delete : store.delete name = .ok (true, { store with filters := store.filters.erase name }) := by
    rw [Store.delete, Store.access, if_pos holds.ready, present]
  have gone : Unknown config name
      (files.put shelf.place (.database { store with filters := store.filters.erase name })) := by
    refine unknown_of_finds ⟨_, holds.put holds.ready, ?_⟩
    rw [Dictionary.get?_erase, if_pos rfl]
  refine ⟨?_, fun lookup settings read => ?_, _, ?_, gone⟩
  · rw [holds.run_gives (show_gives _ load _), String.empty_append]
  · have holds : shelf.Holds config store (Effects.mk "" "" files).files := holds
    obtain rfl := holds.lookup_eq read
    refine Run.bind_gives_iff.2 ⟨_, _, holds.openFilters, ?_⟩
    exact Run.bind_gives_iff.2 ⟨_, _, Run.lift_gives_iff.2 ⟨load, rfl⟩, Run.pure_gives_iff.2 ⟨rfl, rfl⟩⟩
  · rw [holds.run_gives (delete_gives delete _), String.empty_append]

end Shelf

private theorem nameOf_ne_noFilter {text other : String} : SavedFilter.nameOf text ≠ .error (.noFilter other) := by
  intro failed
  unfold SavedFilter.nameOf at failed
  dsimp only at failed
  split at failed
  · cases failed
  · split at failed <;> cases failed

private theorem ofText_ne_noFilter {text key other : String} :
    SavedFilter.ofText key text ≠ .error (.noFilter other) := by
  intro failed
  unfold SavedFilter.ofText at failed
  split at failed
  · cases failed
  · split at failed
    · cases failed
    · rename_i filter _
      cases named : SavedFilter.nameOf key with
      | error failure =>
        rw [SavedFilter.ofExpression, named] at failed
        cases failed
        exact nameOf_ne_noFilter named
      | ok name =>
        rw [SavedFilter.ofExpression, named] at failed
        cases failed

private theorem free_of_show_fails {store : Store} {session : Session} {other key : String} {before after : Effects}
    (ready : store.ready) (failed : (runAction session store (.show other)).Fails before (.noFilter key) after) :
    store.filters.get? other = none := by
  cases entry : store.filters.get? other with
  | none => rfl
  | some text =>
    have load : store.load other = (SavedFilter.ofText other text).map some := by
      rw [Store.load, Store.access, if_pos ready, entry]
    cases read : SavedFilter.ofText other text with
    | error failure =>
      rw [read] at load
      have faulty : (runAction session store (.show other)).Fails before failure before := Run.lift_bind_fails load before
      have same := Except.error.inj (Prod.mk.inj (faulty.symm.trans failed)).1
      exact absurd (same ▸ read) ofText_ne_noFilter
    | ok saved =>
      rw [read] at load
      have both := (show_gives session load before).symm.trans failed
      cases (Prod.mk.inj both).1

/-- What a successful save leaves: the filter of its file, under the name without blanks, in the database of the
settings. Under any other name the database has what it had. -/
theorem finds_of_save {path : String} {effects : Effects}
    (saved : run (.filters config (.save name path)) files = (0, effects))
    (kept : (databasePlace? config effects.files).isSome) :
    ∃ (content : String) (e : Expression) (shelf : Shelf) (store : Store), files.text? path = some content ∧
      Expression.ofText content = .ok e ∧ SavedFilter.nameOf name = .ok (Text.trim name) ∧
      shelf.Holds config (store.putFilter (Text.trim name) e.text) effects.files ∧
      ∀ other, (run (.filters config (.show other)) files).1 = 6 → store.filters.get? other = none := by
  have given := gives_of_run saved
  obtain ⟨lookup, _, read, given⟩ := Run.bind_gives_iff.1 given
  obtain ⟨configured, rfl⟩ := readConfig_gives_iff.1 read
  obtain ⟨logging, _, logged, given⟩ := Run.bind_gives_iff.1 given
  obtain ⟨level, rfl⟩ := Run.lift_gives_iff.1 logged
  obtain ⟨⟨session, store⟩, between, opened, given⟩ := Run.bind_gives_iff.1 given
  obtain ⟨content, there, e, parsed, key, accepted, ready, left, wrote, rfl⟩ := save_gives_iff.1 given
  obtain ⟨rfl, -⟩ := SavedFilter.nameOf_eq_ok_iff.1 accepted
  have unknown : ∀ other, (run (.filters config (.show other)) files).1 = 6 → store.filters.get? other = none := by
    intro other answer
    obtain ⟨_, _, failed⟩ := fails_of_run answer
    have failed := (Run.bind_fails_iff logged).1 ((Run.bind_fails_iff read).1 failed)
    exact free_of_show_fails ready ((Run.bind_fails_iff opened).1 failed)
  rcases exists_shelf_or_memory configured ⟨logging, level⟩ opened (Session.writable_of_keep wrote) with
    ⟨nowhere, no_place, rfl⟩ | ⟨shelf, rfl, rfl, stands, leads, same⟩
  · have kept : (databasePlace? config left).isSome := kept
    rw [Session.keep_in_memory nowhere wrote, no_place] at kept
    cases kept
  · obtain ⟨-, rfl⟩ := Session.keep_eq_ok rfl wrote
    have stays : shelf.Stands config (store.putFilter (Text.trim name) e.text) _ := stands.put ready
    have elsewhere : files.place? path ≠ some shelf.place := by
      have after := stands.elsewhere there
      rwa [same.leads] at after
    refine ⟨content, e, shelf, store, ?_, parsed, accepted, stays.holds leads kept, unknown⟩
    rw [← same.texts path elsewhere]
    exact there

/-- A filter that was saved is found under the argument without the blanks around it, by every command and after any that
save and delete nothing under that name. An argument with blanks around it, under which there was nothing before, finds
nothing. -/
theorem saved_name_designates {path : String} {effects : Effects}
    (saved : run (.filters config (.save name path)) files = (0, effects))
    (kept : (databasePlace? config effects.files).isSome) :
    ∃ (content : String) (e : Expression), files.text? path = some content ∧ Expression.ofText content = .ok e ∧
      (e.ReadsBack → ∀ commands, AllSpare config (Text.trim name) effects.files commands →
        Designates config (Text.trim name) e (filesAfter effects.files commands)) ∧
      (Text.trim name ≠ name → (run (.filters config (.show name)) files).1 = 6 →
        ∀ commands, AllSpare config name effects.files commands →
          Unknown config name (filesAfter effects.files commands)) := by
  obtain ⟨content, e, shelf, store, there, parsed, accepted, holds, unknown⟩ := finds_of_save saved kept
  refine ⟨content, e, there, parsed, fun reads commands spare => ?_, fun blank answer commands spare => ?_⟩
  · have entry : (store.putFilter (Text.trim name) e.text).filters.get? (Text.trim name) = some e.text := by
      rw [Store.putFilter, Dictionary.get?_insert, if_pos rfl]
    have sound : (Store.FilterCall.save ⟨Text.trim name, e⟩).IsSound := by
      refine ⟨⟨name, SavedFilter.ofExpression_eq_ok_iff.2 ⟨accepted, rfl⟩⟩, ?_, reads⟩
      unfold Expression.ofText at parsed
      split at parsed
      · exact ⟨_, parsed⟩
      · cases parsed
    exact Shelf.designates_of_finds sound (Shelf.finds_filesAfter spare ⟨_, holds, entry⟩)
  · have free : (store.putFilter (Text.trim name) e.text).filters.get? name = none := by
      rw [Store.putFilter, Dictionary.get?_insert, if_neg (Ne.symm blank), unknown name answer]
    exact Shelf.unknown_of_finds (Shelf.finds_filesAfter spare ⟨_, holds, free⟩)

namespace Sample
open Store.Sample (rising wellFormed_rising readsBack_rising)

def shelved : Files := ⟨[
  (["s.ini"], .text "[sqlite]\npath = s.db\n"),
  (["s.db"], .database Store.blank.prepared),
  (["rising.json"], .text rising.text)]⟩

def sqlite : Ini := ⟨[⟨"sqlite", "path", some "s.db"⟩]⟩

def shelf : Shelf where
  lookup := sqlite.lookup
  settings := ⟨"s.db", 4⟩
  name := ⟨some "s.db", .create, false⟩
  path := "s.db"
  place := ["s.db"]
  valid := toOption_eq_some_iff.1 (by decide +kernel)
  logged := ⟨⟨"info", .text⟩, by rfl⟩
  called := by rfl
  in_file := rfl
  writable := rfl
  named := by decide

private theorem holds_shelved : shelf.Holds "s.ini" Store.blank.prepared shelved := by
  refine ⟨⟨?_, rfl, rfl⟩, by rfl⟩
  have read : Ini.ofText? "[sqlite]\npath = s.db\n" = some sqlite := by decide +kernel
  have text : shelved.text? "s.ini" = some "[sqlite]\npath = s.db\n" := rfl
  rw [text, Option.bind_some, read]
  rfl

private theorem run_save : ∃ effects, run (.filters "s.ini" (.save " golden " "rising.json")) shelved = (0, effects) ∧
    shelf.Holds "s.ini" (Store.blank.prepared.putFilter "golden" rising.text) effects.files := by
  have parsed : Expression.ofText rising.text = .ok rising := Expression.ofText_text wellFormed_rising readsBack_rising
  have kept := shelf.session_keep (Store.blank.prepared.putFilter "golden" rising.text) shelved
  have given :
      (runAction shelf.session Store.blank.prepared (.save " golden " "rising.json")).Gives ⟨"", "", shelved⟩ () _ :=
    save_gives_iff.2 ⟨rising.text, rfl, rising, parsed, "golden", rfl, rfl, _, kept, rfl⟩
  exact ⟨_, holds_shelved.run_gives given, holds_shelved.put rfl⟩

end Sample

theorem saved_name_designates_sample : ∃ effects,
    run (.filters "s.ini" (.save " golden " "rising.json")) Sample.shelved = (0, effects) ∧
      (databasePlace? "s.ini" effects.files).isSome ∧ Unknown "s.ini" " golden " effects.files ∧
      Designates "s.ini" "golden" Store.Sample.rising
        (filesAfter effects.files [.filters "s.ini" (.delete " golden "), .filters "s.ini" .list]) := by
  obtain ⟨effects, saved, holds⟩ := Sample.run_save
  have kept : (databasePlace? "s.ini" effects.files).isSome := by
    rw [holds.databasePlace?_eq]
    rfl
  have trimmed : Text.trim " golden " = "golden" := by rfl
  obtain ⟨content, e, there, parsed, designates, unknown⟩ := saved_name_designates saved kept
  obtain rfl : Store.Sample.rising.text = content := Option.some.inj there
  have read := Expression.ofText_text Store.Sample.wellFormed_rising Store.Sample.readsBack_rising
  obtain rfl := Except.ok.inj (read.symm.trans parsed)
  have before : Unknown "s.ini" " golden " Sample.shelved := Shelf.unknown_of_finds ⟨_, Sample.holds_shelved, rfl⟩
  rw [trimmed] at designates unknown
  refine ⟨effects, saved, kept, unknown (by decide) (congrArg Prod.fst before.shown) [] trivial, ?_⟩
  exact designates Store.Sample.readsBack_rising _ ⟨⟨rfl, by decide⟩, ⟨rfl, by decide⟩, trivial⟩

/-- An argument under which a filter has just been saved can be answered as if there were none. -/
theorem exists_saved_not_found : ∃ config name path files effects,
    run (.filters config (.save name path)) files = (0, effects) ∧
      (run (.filters config (.show name)) effects.files).1 = (Failure.noFilter name).exitCode := by
  obtain ⟨effects, saved, holds⟩ := Sample.run_save
  have unknown : Unknown "s.ini" " golden " effects.files := Shelf.unknown_of_finds ⟨_, holds, by decide +kernel⟩
  exact ⟨_, _, _, _, effects, saved, congrArg Prod.fst unknown.shown⟩

end Screener.Command
