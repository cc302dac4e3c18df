import Screener.Proofs.Command.Keeping
import Screener.Proofs.SavedFilter
import Screener.Proofs.Store.Opening

/-! The database that the settings of a command name, in a file. A command that opens it leaves it there with its tables,
and a command that comes later finds it as it was left; what stands under a name changes only with a command that saves or
deletes under that name. -/
namespace Screener.Command
open Settings (Lookup Logging StoreSettings Ini ScanSettings)
variable {config : String} {lookup : Lookup} {store next : Store} {files : Files}
  {before after : Effects}

theorem openStore_gives_iff {name : String} {session : Session} :
    (openStore name).Gives before (session, store) after ↔
      ∃ database reached left, Store.Name.ofText name = .ok database ∧
        Session.ofName before.files database = .ok (session, reached) ∧ session.prepared reached = .ok (store, left) ∧
        { before with files := left } = after := by
  simp only [openStore, Run.bind_gives_iff, Run.get_gives_iff, and_assoc, exists_and_left, exists_eq_left, exists_eq_left']
  cases called : Store.Name.ofText name with
  | error fault => exact iff_of_false Run.throw_gives_iff.1 (by simp)
  | ok database =>
    cases opened : Session.ofName before.files database with
    | error fault =>
      refine iff_of_false ?_ (by simp [opened])
      simp only [Except.bind, opened]
      exact Run.throw_gives_iff.1
    | ok found =>
      obtain ⟨session', reached⟩ := found
      simp only [Except.bind, opened, setFiles, Run.bind_gives_iff, Run.modify_gives_iff, Run.lift_gives_iff,
        Run.pure_gives_iff, Prod.mk.injEq]
      constructor
      · rintro ⟨_, _, rfl, ⟨_, left⟩, _, ⟨made, rfl⟩, _, _, rfl, ⟨rfl, rfl⟩, rfl⟩
        exact ⟨database, rfl, reached, opened, left, made, rfl⟩
      · rintro ⟨_, ⟨⟩, _, same, left, made, rfl⟩
        obtain ⟨rfl, rfl⟩ := Prod.mk.inj (Except.ok.inj (opened.symm.trans same))
        exact ⟨(), _, rfl, (store, left), _, ⟨made, rfl⟩, (), _, rfl, ⟨rfl, rfl⟩, rfl⟩

theorem keep_gives_iff {session : Session} {u : Unit} : (keep session store).Gives before u after ↔
    ∃ left, session.keep store before.files = .ok left ∧ { before with files := left } = after := by
  simp only [keep, setFiles, Run.bind_gives_iff, Run.get_gives_iff, Run.lift_gives_iff, Run.modify_gives_iff, and_assoc,
    exists_and_left, exists_eq_left, exists_eq_left']

/-- What the settings in a file say, if they name a database in a file that may be written. -/
structure Shelf where
  lookup : Lookup
  settings : StoreSettings
  name : Store.Name
  path : String
  place : List String
  valid : StoreSettings.ofLookup lookup = .ok settings
  logged : ∃ logging, Logging.ofLookup lookup = .ok logging
  called : Store.Name.ofText settings.database = .ok name
  in_file : name.file = some path
  writable : name.isWritable
  named : place ≠ []

namespace Shelf
variable {shelf : Shelf}

def session (shelf : Shelf) : Session := ⟨some shelf.place, shelf.name.isWritable⟩

theorem session_keep (shelf : Shelf) (store : Store) (files : Files) :
    shelf.session.keep store files = .ok (files.put shelf.place (.database store)) := by
  simp [Session.keep, session, shelf.writable]

theorem keep (shelf : Shelf) (store : Store) (before : Effects) : (Command.keep shelf.session store).Gives before ()
    { before with files := before.files.put shelf.place (.database store) } :=
  keep_gives_iff.2 ⟨_, shelf.session_keep store before.files, rfl⟩

/-- The settings are in the file, and the database is where they say. -/
structure Stands (shelf : Shelf) (config : String) (store : Store) (files : Files) : Prop where
  configured : ((files.text? config).bind Ini.ofText?).map Ini.lookup = some shelf.lookup
  there : files.at? shelf.place = some (.database store)
  ready : store.ready

/-- The database stands where the settings lead. -/
structure Holds (shelf : Shelf) (config : String) (store : Store) (files : Files) : Prop
    extends shelf.Stands config store files where
  leads : files.foldedPlace? shelf.path = some shelf.place

namespace Stands

theorem file (stands : shelf.Stands config store files) : files.isDirectoryAt shelf.place = false := by
  rw [Files.isDirectoryAt, stands.there]
  rfl

theorem room (stands : shelf.Stands config store files) : files.HasRoom shelf.place := by
  refine ⟨shelf.named, stands.file, ?_, ?_⟩ <;> simp [stands.there]

theorem elsewhere (stands : shelf.Stands config store files) {path content : String}
    (text : files.text? path = some content) : files.place? path ≠ some shelf.place := by
  intro here
  rw [Files.text?, Files.find?, here, Option.bind_some, stands.there] at text
  cases text

private theorem config_elsewhere (stands : shelf.Stands config store files) :
    files.place? config ≠ some shelf.place := by
  obtain ⟨ini, read, -⟩ := Option.map_eq_some_iff.1 stands.configured
  obtain ⟨content, text, -⟩ := Option.bind_eq_some_iff.1 read
  exact stands.elsewhere text

theorem put (stands : shelf.Stands config store files) (ready : next.ready) :
    shelf.Stands config next (files.put shelf.place (.database next)) := by
  refine ⟨?_, by rw [Files.at?_put stands.room.no_sink, if_pos rfl], ready⟩
  rw [Files.text?_put stands.room rfl stands.config_elsewhere]
  exact stands.configured

end Stands

namespace Holds

theorem put (holds : shelf.Holds config store files) (ready : next.ready) :
    shelf.Holds config next (files.put shelf.place (.database next)) := by
  refine ⟨holds.toStands.put ready, ?_⟩
  rw [Files.foldedPlace?_put holds.there nofun (.database next) rfl]
  exact holds.leads

theorem openStore (holds : shelf.Holds config store before.files) :
    (Command.openStore shelf.settings.database).Gives before (shelf.session, store) before := by
  refine openStore_gives_iff.2 ⟨shelf.name, before.files, before.files, shelf.called, ?_, ?_, rfl⟩
  · simp only [Session.ofName, shelf.in_file, holds.leads]
    rw [Session.reach_of_file shelf.named holds.file (by rw [holds.there]; rfl)]
    rfl
  · have read : shelf.session.store before.files = .ok store := by
      simp only [Session.store, session, holds.there]
    rw [Session.prepared, read]
    exact if_pos holds.ready

theorem openFilters (holds : shelf.Holds config store before.files) :
    (Command.openFilters shelf.lookup).Gives before (shelf.session, store) before :=
  Run.bind_gives_iff.2 ⟨shelf.settings, before, Run.lift_gives_iff.2 ⟨shelf.valid, rfl⟩, holds.openStore⟩

end Holds

end Shelf

def databasePlace? (config : String) (files : Files) : Option (List String) := do
  let ini ← (files.text? config).bind Ini.ofText?
  let settings ← (StoreSettings.ofLookup ini.lookup).toOption
  let name ← (Store.Name.ofText settings.database).toOption
  files.foldedPlace? (← name.file)

private theorem databasePlace?_eq {settings : StoreSettings} {name : Store.Name}
    (configured : ((files.text? config).bind Ini.ofText?).map Ini.lookup = some lookup)
    (valid : StoreSettings.ofLookup lookup = .ok settings) (called : Store.Name.ofText settings.database = .ok name) :
    databasePlace? config files = name.file.bind files.foldedPlace? := by
  obtain ⟨ini, read, rfl⟩ := Option.map_eq_some_iff.1 configured
  simp only [databasePlace?, read, valid, called, Except.toOption, Option.bind_eq_bind, Option.bind_some]

namespace Shelf
variable {shelf : Shelf}

theorem Stands.databasePlace?_eq (stands : shelf.Stands config store files) :
    databasePlace? config files = files.foldedPlace? shelf.path := by
  rw [Command.databasePlace?_eq stands.configured shelf.valid shelf.called, shelf.in_file, Option.bind_some]

theorem Stands.holds {earlier : Files} (stands : shelf.Stands config store files)
    (led : earlier.foldedPlace? shelf.path = some shelf.place) (kept : (databasePlace? config files).isSome) :
    shelf.Holds config store files := by
  rw [stands.databasePlace?_eq] at kept
  obtain ⟨place, leads⟩ := Option.isSome_iff_exists.1 kept
  obtain rfl := Files.foldedPlace?_congr led leads
  exact ⟨stands, leads⟩

theorem Holds.databasePlace?_eq (holds : shelf.Holds config store files) :
    databasePlace? config files = some shelf.place := holds.toStands.databasePlace?_eq.trans holds.leads

theorem Holds.write? {path : String} {node : Node} {left : Files} (holds : shelf.Holds config store files)
    (wrote : files.write? path node = some left) (file : node.isFile) (beside : files.place? path ≠ files.place? config)
    (apart : files.place? path ≠ databasePlace? config files) (kept : (databasePlace? config left).isSome) :
    shelf.Holds config store left := by
  obtain ⟨place, there, rfl | ⟨room, rfl⟩⟩ := Files.write?_eq_some wrote
  · exact holds
  · rw [there] at beside apart
    have elsewhere : shelf.place ≠ place := by
      rintro rfl
      exact apart holds.databasePlace?_eq.symm
    have stands : shelf.Stands config store (files.put place node) := by
      refine ⟨?_, by rw [Files.at?_put room.no_sink, if_neg elsewhere, holds.there], holds.ready⟩
      rw [Files.text?_put room (Files.isDirectory_of_isFile file) beside.symm]
      exact holds.configured
    exact stands.holds holds.leads kept

end Shelf

private theorem not_configured_of_empty {settings : StoreSettings}
    (empty : (Ini.ofText? "").map Ini.lookup = some lookup) : StoreSettings.ofLookup lookup ≠ .ok settings := by
  have read : Ini.ofText? "" = some ⟨[]⟩ := by decide
  rw [read] at empty
  obtain rfl : Ini.lookup ⟨[]⟩ = lookup := Option.some.inj empty
  exact nofun

/-- A database that can be opened is in memory, or it is found in its file or made there, and nothing else changes. -/
theorem exists_shelf_or_memory {session : Session}
    (configured : ((before.files.text? config).bind Ini.ofText?).map Ini.lookup = some lookup)
    (logged : ∃ logging, Logging.ofLookup lookup = .ok logging)
    (opened : (openFilters lookup).Gives before (session, store) after) (writable : session.writable) :
    (session.place = none ∧ databasePlace? config before.files = none ∧ after = before) ∨
      ∃ shelf : Shelf, shelf.lookup = lookup ∧ shelf.session = session ∧ shelf.Stands config store after.files ∧
        before.files.foldedPlace? shelf.path = some shelf.place ∧ before.files.SameBut shelf.place after.files := by
  obtain ⟨settings, between, found, opened⟩ := Run.bind_gives_iff.1 opened
  obtain ⟨valid, rfl⟩ := Run.lift_gives_iff.1 found
  obtain ⟨name, reached, left, called, led, made, rfl⟩ := openStore_gives_iff.1 opened
  obtain ⟨allowed, ⟨memory, nowhere, rfl⟩ | ⟨path, place, file, leads, there, led⟩⟩ := Session.ofName_eq_ok led
  · refine .inl ⟨nowhere, by rw [databasePlace?_eq configured valid called, memory]; rfl, ?_⟩
    rw [Session.prepared_in_memory nowhere made]
  · obtain ⟨named, stands, ready, same, empty⟩ := Session.prepared_of_reach there led made
    have other : before.files.place? config ≠ some place := by
      intro here
      obtain ⟨ini, read, rfl⟩ := Option.map_eq_some_iff.1 configured
      obtain ⟨content, text, read⟩ := Option.bind_eq_some_iff.1 read
      rw [empty config content here text] at read
      exact not_configured_of_empty (Option.map_eq_some_iff.2 ⟨ini, read, rfl⟩) valid
    let shelf : Shelf := ⟨lookup, settings, name, path, place, valid, logged, called, file, allowed ▸ writable, named⟩
    have session_eq : shelf.session = session := by
      cases session
      cases there
      cases allowed
      rfl
    refine .inr ⟨shelf, rfl, session_eq, ⟨?_, stands, ready⟩, leads, same⟩
    rw [same.texts config other]
    exact configured

def FilterAction.target? : FilterAction → Option String
  | .save name _ => some (Text.trim name)
  | .delete name => some name
  | .list | .show _ => none

/-- The command has its settings from the file and saves or deletes nothing under the name. If it writes a report to a
file, that is neither the one of the settings nor the database, and the settings lead to a database after that. -/
def Arguments.Spares (config key : String) (files : Files) : Arguments → Prop
  | .filters file action => file = config ∧ action.target? ≠ some key
  | .scan arguments => arguments.config = config ∧ ∀ path, arguments.output = some path →
      files.place? path ≠ files.place? config ∧ files.place? path ≠ databasePlace? config files ∧
        (databasePlace? config (run (.scan arguments) files).2.files).isSome
  | .listSymbols file | .info file _ => file = config
  | .validate _ => True

def filesAfter (files : Files) (commands : List Arguments) : Files :=
  commands.foldl (fun files command => (run command files).2.files) files

def AllSpare (config key : String) (files : Files) : List Arguments → Prop
  | [] => True
  | command :: rest => command.Spares config key files ∧ AllSpare config key (run command files).2.files rest

namespace Shelf
variable {shelf : Shelf} {key : String} {text? : Option String}

/-- Under the name there is the text in the database, or nothing is there. -/
def Finds (shelf : Shelf) (config key : String) (text? : Option String) (files : Files) : Prop :=
  ∃ store, shelf.Holds config store files ∧ store.filters.get? key = text?

section
variable {P Q : Files → Prop}

private theorem keeps_openFilters (held : ∀ files, P files → ∃ store, shelf.Holds config store files) :
    (openFilters shelf.lookup).Keeps P :=
  Run.keeps_of_gives fun before holds =>
    have ⟨_, there⟩ := held before.files holds
    ⟨_, before, there.openFilters, holds⟩

private theorem database_of_settings {settings : ScanSettings}
    (valid : ScanSettings.ofLookup shelf.lookup = .ok settings) : settings.database = some shelf.settings.database := by
  have named : shelf.lookup "sqlite" "path" = some shelf.settings.database := by
    have valid := shelf.valid
    unfold StoreSettings.ofLookup at valid
    split at valid
    · cases valid
    · rename_i database found
      obtain ⟨_, -, made⟩ := bind_eq_ok_iff.1 valid
      rw [← Except.ok.inj made]
      exact found
  simp only [ScanSettings.ofLookup, bind_eq_ok_iff] at valid
  obtain ⟨_, -, _, -, _, -, _, -, _, -, _, -, _, -, _, -, _, -, _, -, made⟩ := valid
  cases made
  exact named

private theorem keeps_openSource (held : ∀ files, P files → ∃ store, shelf.Holds config store files)
    {settings : ScanSettings}
    (valid : ScanSettings.ofLookup shelf.lookup = .ok settings) : (openSource settings).Keeps P := by
  unfold openSource
  split
  · split
    · exact Run.keeps_bind Run.keeps_get fun _ _ _ _ _ => Run.keeps_pure _
    · exact Run.keeps_throw _
  · rw [database_of_settings valid]
    have opens : (openStore shelf.settings.database).Keeps P := Run.keeps_of_gives fun before holds =>
      have ⟨_, there⟩ := held before.files holds
      ⟨_, before, there.openStore, holds⟩
    exact Run.keeps_bind opens fun _ _ _ _ _ => Run.keeps_pure _

private theorem keeps_basis (held : ∀ files, P files → ∃ store, shelf.Holds config store files)
    (settings : ScanSettings) (source : FilterSource) : (basis shelf.lookup settings source).Keeps P := by
  cases source with
  | request path =>
    refine Run.keeps_bind (keeps_readText path) fun _ _ _ _ _ => ?_
    refine Run.keeps_bind (Run.keeps_lift _) fun _ _ _ _ _ => ?_
    refine Run.keeps_bind (keeps_checked _) fun _ _ _ _ _ => ?_
    exact Run.keeps_bind (keeps_checked _) fun _ _ _ _ _ => Run.keeps_pure _
  | saved name =>
    refine Run.keeps_bind (keeps_openFilters held) fun _ _ _ _ _ => ?_
    refine Run.keeps_bind (Run.keeps_lift _) fun _ found _ _ _ => ?_
    cases found with
    | none => exact Run.keeps_throw _
    | some saved => exact Run.keeps_pure _
  | file path => exact Run.keeps_bind (keeps_readFilter path) fun _ _ _ _ _ => Run.keeps_pure _

private theorem keeps_planOf (held : ∀ files, P files → ∃ store, shelf.Holds config store files)
    (arguments : ScanArguments) (settings : ScanSettings) : (planOf arguments shelf.lookup settings).Keeps P := by
  refine Run.keeps_bind (keeps_basis held settings _) fun _ _ _ _ _ => ?_
  refine Run.keeps_bind (keeps_checked _) fun _ _ _ _ _ => ?_
  exact Run.keeps_bind (keeps_checked _) fun _ _ _ _ _ => Run.keeps_pure _

private theorem leads_readConfig_bind {α : Type} {next : Lookup → Run α} (enough : ∀ files, P files → Q files)
    (held : ∀ files, P files → ∃ store, shelf.Holds config store files) (rest : (next shelf.lookup).Leads P Q) :
    (readConfig config >>= next).Leads P Q := by
  refine Run.leads_bind enough (keeps_readConfig config) fun before lookup _ holds given => ?_
  obtain ⟨store, there⟩ := held before.files holds
  obtain ⟨read, -⟩ := readConfig_gives_iff.1 given
  obtain rfl := Option.some.inj (there.configured.symm.trans read)
  exact rest

private theorem leads_settingsOf_bind {α : Type} {next : ScanSettings → Run α} (enough : ∀ files, P files → Q files)
    (rest : ∀ settings, ScanSettings.ofLookup shelf.lookup = .ok settings → (next settings).Leads P Q) :
    (settingsOf shelf.lookup >>= next).Leads P Q :=
  Run.leads_bind enough (Run.keeps_lift _) fun _ settings _ _ given => rest settings (settingsOf_gives_iff.1 given).1

private theorem keeps_runValidate (path : String) : (runValidate path).Keeps P := by
  refine Run.keeps_bind (Run.keeps_note _) fun _ _ _ _ _ => Run.keeps_bind (keeps_readFilter path) fun _ filter _ _ _ => ?_
  refine Run.keeps_bind (Run.keeps_note _) fun _ _ _ _ _ => Run.keeps_bind (Run.keeps_note _) fun _ _ _ _ _ => ?_
  have ends : (print filter.text >>= fun _ => note "\nFilter is valid.").Keeps P :=
    Run.keeps_bind (Run.keeps_print _) fun _ _ _ _ _ => Run.keeps_note _
  dsimp only
  split
  · exact Run.keeps_bind (Run.keeps_note _) fun _ _ _ _ _ => ends
  · exact ends

private theorem keeps_runListSymbols (held : ∀ files, P files → ∃ store, shelf.Holds config store files) :
    (runListSymbols config).Keeps P := by
  refine leads_readConfig_bind (fun _ => id) held (leads_settingsOf_bind (fun _ => id) fun settings valid => ?_)
  refine Run.keeps_bind (keeps_openSource held valid) fun _ _ _ _ _ => Run.keeps_bind (Run.keeps_lift _) fun _ _ _ _ _ => ?_
  split
  · exact Run.keeps_note _
  · exact Run.keeps_bind (Run.keeps_forM fun name _ => Run.keeps_print name) fun _ _ _ _ _ => Run.keeps_note _

private theorem keeps_runInfo (held : ∀ files, P files → ∃ store, shelf.Holds config store files) (symbol : String) :
    (runInfo config symbol).Keeps P := by
  refine leads_readConfig_bind (fun _ => id) held (leads_settingsOf_bind (fun _ => id) fun settings valid => ?_)
  refine Run.keeps_bind (keeps_openSource held valid) fun _ _ _ _ _ => ?_
  refine Run.keeps_bind (Run.keeps_lift _) fun _ found _ _ _ => ?_
  cases found with
  | none => exact Run.keeps_throw _
  | some span => exact Run.keeps_print _

private theorem leads_runScan {arguments : ScanArguments} {files : Files}
    (held : ∃ store, shelf.Holds arguments.config store files) (unwritten : Q files)
    (written : ∀ path text left, arguments.output = some path → files.write? path (.text text) = some left → Q left) :
    (runScan arguments).Leads (· = files) Q := by
  have enough : ∀ other, other = files → Q other := by
    rintro _ rfl
    exact unwritten
  have held : ∀ other, other = files → ∃ store, shelf.Holds arguments.config store other := by
    rintro _ rfl
    exact held
  refine leads_readConfig_bind enough held (leads_settingsOf_bind enough fun settings valid => ?_)
  refine Run.leads_bind enough (keeps_planOf held arguments settings) fun _ plan _ _ _ => ?_
  refine Run.leads_bind enough (keeps_openSource held valid) fun _ source _ _ _ => ?_
  refine Run.leads_bind enough (Run.keeps_lift _) fun _ report _ _ _ => ?_
  dsimp only
  split
  · rename_i path output
    refine Run.leads_bind (fun _ => id) (leads_write enough ?_) fun _ _ _ _ _ => Run.keeps_note _
    rintro _ left rfl wrote
    exact written path _ left output wrote
  · exact fun before same => enough before.files same

end

private theorem keeps_keep (ready : next.ready) (entry : next.filters.get? key = text?) :
    (Command.keep shelf.session next).Keeps (shelf.Finds config key text?) :=
  Run.keeps_of_gives fun before ⟨_, holds, _⟩ => ⟨(), _, shelf.keep next before, next, holds.put ready, entry⟩

/-- An action leaves what is under a name that it does not save or delete. -/
theorem keeps_runAction {action : FilterAction} (other : action.target? ≠ some key) (ready : store.ready)
    (entry : store.filters.get? key = text?) :
    (runAction shelf.session store action).Keeps (shelf.Finds config key text?) := by
  cases action with
  | save name path =>
    refine Run.keeps_bind (keeps_readFilter path) fun _ filter _ _ _ => ?_
    refine Run.keeps_bind (Run.keeps_lift _) fun _ saved _ _ named => ?_
    refine Run.keeps_bind (Run.keeps_lift _) fun _ next _ _ put => ?_
    obtain ⟨accepted, -⟩ := SavedFilter.ofExpression_eq_ok_iff.1 (Run.lift_gives_iff.1 named).1
    obtain ⟨called, -⟩ := SavedFilter.nameOf_eq_ok_iff.1 accepted
    have differs : key ≠ saved.name := fun same => other (congrArg some (called.symm.trans same.symm))
    obtain rfl : store.putFilter saved.name saved.filter.text = next := by
      have put := (Run.lift_gives_iff.1 put).1
      rw [Store.save, Store.access, if_pos ready] at put
      exact Except.ok.inj put
    refine Run.keeps_bind (keeps_keep ready ?_) fun _ _ _ _ _ => Run.keeps_note _
    rw [Store.putFilter, Dictionary.get?_insert, if_neg differs, entry]
  | list =>
    refine Run.keeps_bind (Run.keeps_lift _) fun _ names _ _ _ => ?_
    exact Run.keeps_bind (Run.keeps_forM fun name _ => Run.keeps_print name) fun _ _ _ _ _ => Run.keeps_note _
  | «show» name =>
    refine Run.keeps_bind (Run.keeps_lift _) fun _ found _ _ _ => ?_
    cases found with
    | none => exact Run.keeps_throw _
    | some saved => exact Run.keeps_print _
  | delete name =>
    refine Run.keeps_bind (Run.keeps_lift _) fun _ (found, next) _ _ gone => ?_
    have differs : key ≠ name := fun same => other (congrArg some same.symm)
    obtain rfl : { store with filters := store.filters.erase name } = next := by
      have gone := (Run.lift_gives_iff.1 gone).1
      rw [Store.delete, Store.access, if_pos ready] at gone
      exact (Prod.mk.inj (Except.ok.inj gone)).2
    refine Run.keeps_bind (keeps_keep ready ?_) fun _ _ _ _ _ => ?_
    · rw [Dictionary.get?_erase, if_neg differs, entry]
    · cases found with
      | true => exact Run.keeps_note _
      | false => exact Run.keeps_throw _

private theorem held_of_finds (files : Files) (finds : shelf.Finds config key text? files) :
    ∃ store, shelf.Holds config store files := finds.imp fun _ found => found.1

private theorem keeps_runFilters {action : FilterAction} (other : action.target? ≠ some key) :
    (runFilters config action).Keeps (shelf.Finds config key text?) := by
  refine leads_readConfig_bind (fun _ => id) held_of_finds ?_
  refine Run.keeps_bind (Run.keeps_lift _) fun _ _ _ _ _ => ?_
  refine Run.keeps_bind (keeps_openFilters held_of_finds) fun before (session, store) _ ⟨held, holds, entry⟩ opened => ?_
  obtain ⟨same, -⟩ := Prod.mk.inj (holds.openFilters.symm.trans opened)
  obtain ⟨rfl, rfl⟩ := Prod.mk.inj (Except.ok.inj same)
  exact keeps_runAction other holds.ready entry

/-- A command that spares a name leaves what is under it, whether or not the command succeeds. -/
theorem finds_run {command : Arguments} (spares : command.Spares config key files)
    (finds : shelf.Finds config key text? files) : shelf.Finds config key text? (run command files).2.files := by
  have ran := files_run command files
  cases command with
  | filters file action =>
    obtain ⟨rfl, other⟩ := spares
    exact ran ▸ keeps_runFilters other ⟨"", "", files⟩ finds
  | scan arguments =>
    obtain ⟨rfl, away⟩ := spares
    obtain ⟨store, holds, entry⟩ := finds
    have scanned := @leads_runScan shelf (fun left => (∀ path, arguments.output = some path →
      (databasePlace? arguments.config left).isSome) → shelf.Finds arguments.config key text? left) arguments files
    rw [ran] at away ⊢
    refine scanned ⟨store, holds⟩ (fun _ => ⟨store, holds, entry⟩) ?_ ⟨"", "", files⟩ rfl fun path output => ?_
    · intro path text left output wrote kept
      obtain ⟨beside, apart, -⟩ := away path output
      exact ⟨store, holds.write? wrote rfl beside apart (kept path output), entry⟩
    · exact (away path output).2.2
  | validate path => exact ran ▸ keeps_runValidate path ⟨"", "", files⟩ finds
  | listSymbols file =>
    obtain rfl := spares
    exact ran ▸ keeps_runListSymbols held_of_finds ⟨"", "", files⟩ finds
  | info file symbol =>
    obtain rfl := spares
    exact ran ▸ keeps_runInfo held_of_finds symbol ⟨"", "", files⟩ finds

theorem finds_filesAfter {commands : List Arguments} (spare : AllSpare config key files commands)
    (finds : shelf.Finds config key text? files) : shelf.Finds config key text? (filesAfter files commands) := by
  induction commands generalizing files with
  | nil => exact finds
  | cons command rest ih =>
    obtain ⟨first, others⟩ := spare
    exact ih others (finds_run first finds)

end Shelf

end Screener.Command
