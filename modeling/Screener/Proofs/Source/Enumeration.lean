import Screener.Proofs.Json.Pointer
import Screener.Proofs.Source.Listing

/-! The order in which a system lists its files. Where a path leads and what is there does not depend on it, nor does which
symbols a directory has; but of several files that may be taken for that of a symbol the one that is listed first is. -/
namespace Screener

namespace Files

/-- No place has two nodes. -/
def Distinct (files : Files) : Prop := (files.nodes.map Prod.fst).Nodup

instance (files : Files) : Decidable files.Distinct := inferInstanceAs (Decidable (List.Nodup _))

/-- The other files are the same, listed in another order. -/
def Relisted (files other : Files) : Prop := other.nodes.Perm files.nodes

variable {files other : Files}

private theorem at?_relisted (distinct : files.Distinct) (same : files.Relisted other) (place : List String) :
    other.at? place = files.at? place := by
  have distinct_other : (other.nodes.map Prod.fst).Nodup := (same.map Prod.fst).nodup_iff.2 distinct
  refine Option.ext fun node => ?_
  rw [at?, at?, Json.lookup_eq_some_iff_mem distinct_other, Json.lookup_eq_some_iff_mem distinct]
  exact same.mem_iff

private theorem isDirectoryAt_relisted (distinct : files.Distinct) (same : files.Relisted other) (place : List String) :
    other.isDirectoryAt place = files.isDirectoryAt place := by
  rw [isDirectoryAt, isDirectoryAt, at?_relisted distinct same, same.any_eq]

private theorem place?_relisted (distinct : files.Distinct) (same : files.Relisted other) (path : String) :
    other.place? path = files.place? path := by
  have step : other.step? = files.step? := by
    funext place name
    rw [step?, step?, isDirectoryAt_relisted distinct same]
  rw [place?, place?, step]

private theorem find?_relisted (distinct : files.Distinct) (same : files.Relisted other) (path : String) :
    other.find? path = files.find? path := by
  have there : other.at? = files.at? := funext (at?_relisted distinct same)
  rw [find?, find?, place?_relisted distinct same, there]

private theorem isFile_relisted (distinct : files.Distinct) (same : files.Relisted other) (path : String) :
    other.isFile path = files.isFile path := by
  rw [isFile, isFile, find?_relisted distinct same]

private theorem text?_relisted (distinct : files.Distinct) (same : files.Relisted other) (path : String) :
    other.text? path = files.text? path := by
  rw [text?, text?, find?_relisted distinct same]

private theorem isDirectory_relisted (distinct : files.Distinct) (same : files.Relisted other) (path : String) :
    other.isDirectory path = files.isDirectory path := by
  have there : other.isDirectoryAt = files.isDirectoryAt := funext (isDirectoryAt_relisted distinct same)
  rw [isDirectory, isDirectory, place?_relisted distinct same, there]

def entryOf? (place : List String) (node : List String × Node) : Option (String × Bool) :=
  (below? place node.1).map fun (name, deeper) => (name, !deeper && node.2.isFile)

private theorem entries_eq {directory : String} {place : List String} (leads : files.place? directory = some place) :
    files.entries directory = (files.nodes.filterMap (entryOf? place)).eraseDups := by
  simp only [entries, leads]
  rfl

private theorem mem_entries_relisted (distinct : files.Distinct) (same : files.Relisted other) (directory : String)
    (entry : String × Bool) : entry ∈ other.entries directory ↔ entry ∈ files.entries directory := by
  have leads := place?_relisted distinct same directory
  cases there : files.place? directory with
  | none => simp only [entries, leads, there]
  | some place =>
    rw [entries_eq there, entries_eq (leads.trans there), List.mem_eraseDups, List.mem_eraseDups]
    exact (same.filterMap _).mem_iff

private theorem exists_relisted_first (distinct : files.Distinct) {directory : String} {entry : String × Bool}
    (inside : entry ∈ files.entries directory) :
    ∃ other, files.Relisted other ∧ (other.entries directory).head? = some entry := by
  cases leads : files.place? directory with
  | none => simp [entries, leads] at inside
  | some place =>
    rw [entries_eq leads, List.mem_eraseDups, List.mem_filterMap] at inside
    obtain ⟨node, listed, adds⟩ := inside
    obtain ⟨front, back, split⟩ := List.append_of_mem listed
    have same : files.Relisted ⟨node :: (front ++ back)⟩ := by
      rw [Relisted, split]
      exact List.perm_middle.symm
    refine ⟨_, same, ?_⟩
    rw [entries_eq ((place?_relisted distinct same directory).trans leads), List.filterMap_cons_some adds,
      List.eraseDups_cons, List.head?_cons]

end Files

namespace Directory
variable {files other : Files} {directory symbol : String} {entry : String × Bool}

def exactPath (directory symbol : String) : String := Files.join directory (symbol ++ ".csv")

def barsAt (files : Files) (symbol path : String) : Except Failure (List Bar) :=
  match files.text? path with
  | none => .error (.data (.unreadable path))
  | some content => (barsOfRecords path symbol (Records.ofText content)).mapError .data

/-- What may come of asking for a symbol. A file of exactly its name goes before all others. -/
inductive Answers (files : Files) (directory symbol : String) : Except Failure (List Bar) → Prop
  | exact : files.isFile (exactPath directory symbol) →
    Answers files directory symbol (barsAt files symbol (exactPath directory symbol))
  | listed {entry : String × Bool} : ¬files.isFile (exactPath directory symbol) →
    entry ∈ files.entries directory → Serves symbol entry →
    Answers files directory symbol (barsAt files symbol (Files.join directory entry.1))
  | missing : ¬files.isFile (exactPath directory symbol) → (∀ entry ∈ files.entries directory, ¬Serves symbol entry) →
    Answers files directory symbol (.error (.noData symbol))

/-- There is a file of exactly the name of the symbol, or all that may be taken for it read the same. -/
def Settled (files : Files) (directory symbol : String) : Prop :=
  files.isFile (exactPath directory symbol) ∨
    ∀ a ∈ files.entries directory, ∀ b ∈ files.entries directory, Serves symbol a → Serves symbol b →
      barsAt files symbol (Files.join directory a.1) = barsAt files symbol (Files.join directory b.1)

def serves (symbol : String) (entry : String × Bool) : Bool :=
  isTable entry.1 && entry.2 && Text.sameIgnoringCase (stemAndEnding entry.1).1 symbol

theorem serves_iff : serves symbol entry ↔ Serves symbol entry := by
  rw [serves, Bool.and_eq_true, Bool.and_eq_true, and_assoc]
  exact ⟨fun ⟨table, file, same⟩ => ⟨table, file, same⟩, fun holds => ⟨holds.table, holds.file, holds.same⟩⟩

private theorem bars_eq_of_exact (exact_file : files.isFile (exactPath directory symbol)) :
    bars files directory symbol = barsAt files symbol (exactPath directory symbol) := by
  have found : fileOf? files directory symbol = some (exactPath directory symbol) := if_pos exact_file
  rw [bars, found]
  rfl

private theorem bars_eq_of_first (no_exact : ¬files.isFile (exactPath directory symbol))
    (first : (files.entries directory).find? (serves symbol) = some entry) :
    bars files directory symbol = barsAt files symbol (Files.join directory entry.1) := by
  have found : fileOf? files directory symbol =
      ((files.entries directory).find? (serves symbol)).map fun entry => Files.join directory entry.1 := if_neg no_exact
  rw [bars, found, first]
  rfl

private theorem bars_eq_of_none (no_exact : ¬files.isFile (exactPath directory symbol))
    (none : (files.entries directory).find? (serves symbol) = none) :
    bars files directory symbol = .error (.noData symbol) := by
  have found : fileOf? files directory symbol =
      ((files.entries directory).find? (serves symbol)).map fun entry => Files.join directory entry.1 := if_neg no_exact
  rw [bars, found, none]
  rfl

private theorem answers_bars (files : Files) (directory symbol : String) :
    Answers files directory symbol (bars files directory symbol) := by
  by_cases exact_file : files.isFile (exactPath directory symbol)
  · rw [bars_eq_of_exact exact_file]
    exact .exact exact_file
  · cases first : (files.entries directory).find? (serves symbol) with
    | none =>
      rw [bars_eq_of_none exact_file first]
      exact .missing exact_file fun entry inside holds => List.find?_eq_none.1 first entry inside (serves_iff.2 holds)
    | some entry =>
      rw [bars_eq_of_first exact_file first]
      exact .listed exact_file (List.mem_of_find?_eq_some first) (serves_iff.1 (List.find?_some first))

private theorem barsAt_relisted (distinct : files.Distinct) (same : files.Relisted other) (path : String) :
    barsAt other symbol path = barsAt files symbol path := by
  rw [barsAt, barsAt, Files.text?_relisted distinct same]

private theorem answers_of_relisted (distinct : files.Distinct) (same : files.Relisted other)
    {answer : Except Failure (List Bar)} (given : Answers other directory symbol answer) :
    Answers files directory symbol answer := by
  have exact_iff := Files.isFile_relisted distinct same (exactPath directory symbol)
  have listed_iff := Files.mem_entries_relisted distinct same directory
  cases given with
  | exact exact_file =>
    rw [barsAt_relisted distinct same]
    exact .exact (exact_iff ▸ exact_file)
  | listed no_exact inside holds =>
    rw [barsAt_relisted distinct same]
    exact .listed (exact_iff ▸ no_exact) ((listed_iff _).1 inside) holds
  | missing no_exact unserved =>
    exact .missing (exact_iff ▸ no_exact) fun entry inside => unserved entry ((listed_iff entry).2 inside)

private theorem exists_relisted_of_answers (distinct : files.Distinct) {answer : Except Failure (List Bar)}
    (given : Answers files directory symbol answer) :
    ∃ other, files.Relisted other ∧ bars other directory symbol = answer := by
  cases given with
  | exact exact_file => exact ⟨files, .refl _, bars_eq_of_exact exact_file⟩
  | missing no_exact unserved =>
    refine ⟨files, .refl _, bars_eq_of_none no_exact ?_⟩
    exact List.find?_eq_none.2 fun entry inside holds => unserved entry inside (serves_iff.1 holds)
  | @listed entry no_exact inside holds =>
    obtain ⟨other, same, first⟩ := Files.exists_relisted_first distinct inside
    refine ⟨other, same, ?_⟩
    obtain ⟨rest, entries⟩ := List.head?_eq_some_iff.1 first
    have found : (other.entries directory).find? (serves symbol) = some entry := by
      rw [entries, List.find?_cons_of_pos (serves_iff.2 holds)]
    rw [bars_eq_of_first (by rwa [Files.isFile_relisted distinct same]) found, barsAt_relisted distinct same]

theorem Settled.eq_of_answers (settled : Settled files directory symbol) {a b : Except Failure (List Bar)}
    (first : Answers files directory symbol a) (second : Answers files directory symbol b) : a = b := by
  cases first with
  | exact exact_file =>
    cases second with
    | exact => rfl
    | listed no_exact => exact absurd exact_file no_exact
    | missing no_exact => exact absurd exact_file no_exact
  | listed no_exact inside holds =>
    cases second with
    | exact exact_file => exact absurd exact_file no_exact
    | listed _ inside' holds' => exact (settled.resolve_left no_exact) _ inside _ inside' holds holds'
    | missing _ unserved => exact absurd holds (unserved _ inside)
  | missing no_exact unserved =>
    cases second with
    | exact exact_file => exact absurd exact_file no_exact
    | listed _ inside holds => exact absurd holds (unserved _ inside)
    | missing => rfl

theorem settled_iff (distinct : files.Distinct) : Settled files directory symbol ↔
    ∀ other, files.Relisted other → bars other directory symbol = bars files directory symbol := by
  constructor
  · intro settled other same
    exact settled.eq_of_answers (answers_of_relisted distinct same (answers_bars other directory symbol)) (answers_bars _ _ _)
  · intro fixed
    refine Classical.or_iff_not_imp_left.2 fun no_exact a a_inside b b_inside a_holds b_holds => ?_
    obtain ⟨first, same, a_read⟩ := exists_relisted_of_answers distinct (.listed no_exact a_inside a_holds)
    obtain ⟨second, same', b_read⟩ := exists_relisted_of_answers distinct (.listed no_exact b_inside b_holds)
    rw [← a_read, ← b_read, fixed first same, fixed second same']

private theorem names_congr {entries further : List (String × Unit)}
    (same : ∀ name, name ∈ entries.map Prod.fst ↔ name ∈ further.map Prod.fst) :
    (Dictionary.ofList entries).names = (Dictionary.ofList further).names := by
  have : Std.Irrefl fun a b : String => a < b := ⟨String.lt_irrefl⟩
  have : Std.Antisymm fun a b : String => a < b := ⟨fun _ _ less more => absurd more (String.lt_asymm less)⟩
  refine (Dictionary.names_ascending _).eq_of_mem_iff (Dictionary.names_ascending _) fun name => ?_
  rw [Dictionary.mem_names_ofList, Dictionary.mem_names_ofList, same]

private theorem symbols_relisted (distinct : files.Distinct) (same : files.Relisted other) (directory : String) :
    symbols other directory = symbols files directory := by
  have listed_iff := Files.mem_entries_relisted distinct same directory
  unfold Directory.symbols
  rw [Files.isDirectory_relisted distinct same]
  refine if_congr Iff.rfl (congrArg Except.ok (names_congr fun name => ?_)) rfl
  simp only [List.mem_map, List.mem_filter, listed_iff]

/-- In whatever order the files are listed, a directory has the same symbols, and what comes of asking for a symbol is the
reading of one of the files that may be taken for it; each of them is the one that is read in some order. So it is the
same in every order if and only if there is a file of exactly the name of the symbol, or all of these read the same; the
directory as a source does not depend on the order if and only if this holds for every symbol. -/
theorem listing_order_decides (distinct : files.Distinct) (directory : String) :
    (∀ other, files.Relisted other → symbols other directory = symbols files directory) ∧
      (∀ symbol answer, (∃ other, files.Relisted other ∧ bars other directory symbol = answer) ↔
        Answers files directory symbol answer) ∧
      (∀ symbol, (∀ other, files.Relisted other → bars other directory symbol = bars files directory symbol) ↔
        Settled files directory symbol) ∧
      ((∀ other, files.Relisted other → source other directory = source files directory) ↔
        ∀ symbol, Settled files directory symbol) := by
  refine ⟨fun other same => symbols_relisted distinct same directory, fun symbol answer => ⟨?_, ?_⟩,
    fun symbol => (settled_iff distinct).symm, fun fixed symbol => ?_, fun settled other same => ?_⟩
  · rintro ⟨other, same, rfl⟩
    exact answers_of_relisted distinct same (answers_bars other directory symbol)
  · exact exists_relisted_of_answers distinct
  · refine (settled_iff distinct).2 fun other same => ?_
    exact congrFun (congrArg Source.bars (fixed other same)) symbol
  · have same_bars : bars other directory = bars files directory :=
      funext fun symbol => (settled_iff distinct).1 (settled symbol) other same
    rw [source, source, same_bars, symbols_relisted distinct same]

end Directory

namespace Source.Sample

def rivals : Files := ⟨[
  (["bars", "Abc.csv"], .text "date,open,high,low,close,volume\n"),
  (["bars", "aBC.csv"], .text "date,open,high,low,close,volume\n2024-01-15,1,1,1,1,1\n")]⟩

end Source.Sample

open Source.Sample (rivals)

theorem Source.Sample.serves_rivals : ∀ entry ∈ rivals.entries "bars", Directory.Serves "ABC" entry := by
  have entries : rivals.entries "bars" = [("Abc.csv", true), ("aBC.csv", true)] := by decide +kernel
  have holding : ∀ entry ∈ rivals.entries "bars", Directory.serves "ABC" entry := by
    rw [entries]
    decide +kernel
  exact fun entry inside => Directory.serves_iff.1 (holding entry inside)

theorem listing_order_decides_sample :
    rivals.Distinct ∧ ∀ name ∈ ["Abc.csv", "aBC.csv"], ∃ other, rivals.Relisted other ∧
      Directory.bars other "bars" "ABC" = Directory.barsAt rivals "ABC" (Files.join "bars" name) := by
  have distinct : rivals.Distinct := by decide
  have no_exact : ¬rivals.isFile (Directory.exactPath "bars" "ABC") := by decide +kernel
  have inside : ∀ name ∈ ["Abc.csv", "aBC.csv"], (name, true) ∈ rivals.entries "bars" := by decide +kernel
  have reached := (Directory.listing_order_decides distinct "bars").2.1 "ABC"
  refine ⟨distinct, fun name member => (reached _).2 ?_⟩
  have there := inside name member
  exact @Directory.Answers.listed rivals "bars" "ABC" (name, true) no_exact there (Source.Sample.serves_rivals _ there)

/-- A row is found or not, as the file that holds it is listed in front of another one or behind it. -/
theorem exists_order_that_matters : ∃ files other directory symbol, files.Distinct ∧ files.Relisted other ∧
    Directory.bars other directory symbol ≠ Directory.bars files directory symbol := by
  refine ⟨rivals, ⟨rivals.nodes.reverse⟩, "bars", "ABC", by decide, List.reverse_perm _, fun same => ?_⟩
  have found : (Directory.bars ⟨rivals.nodes.reverse⟩ "bars" "ABC").toOption.map List.length = some 1 := by decide +kernel
  have missed : (Directory.bars rivals "bars" "ABC").toOption.map List.length = some 0 := by decide +kernel
  rw [same, missed] at found
  cases found

end Screener
