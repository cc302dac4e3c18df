import Screener.Proofs.Dictionary
import Screener.Proofs.Files
import Screener.Proofs.Store.Span
import Screener.Proofs.Text.Case
import Screener.Proofs.Universe
import Screener.Source.Directory

/-! Whether the symbols that a source lists can be asked for. A directory lists the upper case of the names of its tables
but takes a file for that of a symbol if their names differ in the case of the letters A to Z alone; a database lists and
finds symbols as they stand. Either has bars of a symbol in the form that lists of symbols are put in only if it has them
under that very name. -/
namespace Screener

/-- The source has no bars of the symbol. -/
def Source.Lacks (source : Source) (symbol : String) : Prop := source.bars symbol = .error (.noData symbol)

namespace Directory
variable {files : Files} {directory symbol : String} {symbols : List String} {entry : String × Bool}

/-- The entry is a file that may be taken for that of the symbol. -/
structure Serves (symbol : String) (entry : String × Bool) : Prop where
  table : isTable entry.1
  file : entry.2
  same : Text.sameIgnoringCase (stemAndEnding entry.1).1 symbol

private theorem mem_of_mem_stem {name : String} {c : Char} (inside : c ∈ (stemAndEnding name).1.toList) :
    c ∈ name.toList := by
  unfold stemAndEnding at inside
  rw [List.span_eq_takeWhile_dropWhile] at inside
  split at inside
  · exact inside
  · exact inside
  · rename_i ending point stem _ shape
    have rest : name.toList.reverse.dropWhile (· != '.') = point :: stem := congrArg Prod.snd shape
    rw [String.toList_ofList, List.mem_reverse] at inside
    have kept := (List.dropWhile_sublist (· != '.')).subset (rest ▸ List.mem_cons_of_mem point inside)
    exact List.mem_reverse.1 kept

private theorem slash_not_mem_upper {s : String} (plain : '/' ∉ s.toList) : '/' ∉ (Text.upper s).toList := by
  intro inside
  rw [Text.upper, String.toList_ofList] at inside
  obtain ⟨c, there, image⟩ := List.mem_flatMap.1 inside
  have outside : Text.inSpans [(0x2F, 0x2F)] c = false := by
    refine Bool.eq_false_iff.2 fun within => plain ?_
    simp only [Text.inSpans, List.any_cons, List.any_nil, Bool.or_false, Bool.and_eq_true, decide_eq_true_eq] at within
    have code : c.toNat = '/'.toNat := Nat.le_antisymm within.2 within.1
    exact Char.toNat_inj.1 code ▸ there
  have image_outside := Text.inSpans_of_image (by decide) (by decide +kernel) (by decide +kernel) outside image
  cases image_outside

private theorem slash_not_mem_standardForm {s : String} (plain : '/' ∉ s.toList) :
    '/' ∉ (Universe.standardForm s).toList :=
  slash_not_mem_upper fun inside => plain (Text.mem_of_mem_trim inside)

private theorem stemAndEnding_csv {stem : String} (named : stem ≠ "") :
    stemAndEnding (stem ++ ".csv") = (stem, some "csv") := by
  obtain ⟨c, rest, shape⟩ := List.exists_cons_of_ne_nil fun none =>
    named (String.toList_eq_nil_iff.1 (List.reverse_eq_nil_iff.1 none))
  have split : (stem ++ ".csv").toList.reverse.span (· != '.') = (['v', 's', 'c'], '.' :: c :: rest) := by
    rw [String.toList_append, List.reverse_append, shape]
    rfl
  have back : String.ofList (c :: rest).reverse = stem := by
    rw [← shape, List.reverse_reverse, String.ofList_toList]
  unfold stemAndEnding
  rw [split]
  simp only [back]
  rfl

private theorem serves_csv {stem : String} (named : stem ≠ "") : Serves stem (stem ++ ".csv", true) := by
  have parts := stemAndEnding_csv named
  refine ⟨?_, rfl, ?_⟩
  · rw [isTable, parts]
    rfl
  · rw [parts, Text.sameIgnoringCase, beq_self_eq_true]

private theorem isStep_csv {stem : String} (plain : '/' ∉ stem.toList) : Files.IsStep (stem ++ ".csv") := by
  have last : (stem ++ ".csv").toList.getLast? = some 'v' := by
    rw [String.toList_append]
    exact List.getLast?_append_of_ne_nil _ (List.cons_ne_nil _ _)
  refine ⟨fun inside => ?_, ?_, ?_⟩
  · rw [String.toList_append] at inside
    exact (List.mem_append.1 inside).elim plain (by decide)
  · rintro (empty | point)
    · rw [empty] at last
      cases last
    · rw [point] at last
      cases last
  · intro up
    rw [up] at last
    cases last

/-- A symbol has a file if an entry may be taken for it. A blank one may also have the file that is an ending alone. -/
theorem fileOf?_eq_none_iff (plain : '/' ∉ symbol.toList) : fileOf? files directory symbol = none ↔
    (symbol = "" → ¬files.isFile (Files.join directory ".csv")) ∧
      ∀ entry ∈ files.entries directory, ¬Serves symbol entry := by
  unfold fileOf?
  by_cases exact_file : files.isFile (Files.join directory (symbol ++ ".csv"))
  · simp only [if_pos exact_file]
    refine iff_of_false (Option.some_ne_none _) fun ⟨blank, unserved⟩ => ?_
    by_cases empty : symbol = ""
    · rw [empty, String.empty_append] at exact_file
      exact blank empty exact_file
    · exact unserved _ (Files.mem_entries_of_isFile (isStep_csv plain) exact_file) (serves_csv empty)
  · have blank (empty : symbol = "") : ¬files.isFile (Files.join directory ".csv") := by
      rwa [empty, String.empty_append] at exact_file
    simp only [if_neg exact_file]
    rw [Option.map_eq_none_iff, List.find?_eq_none, and_iff_right blank]
    refine forall₂_congr fun entry _ => not_congr ?_
    rw [Bool.and_eq_true, Bool.and_eq_true, and_assoc]
    exact ⟨fun ⟨table, file, same⟩ => ⟨table, file, same⟩, fun serves => ⟨serves.table, serves.file, serves.same⟩⟩

theorem bars_eq_noData_iff :
    bars files directory symbol = .error (.noData symbol) ↔ fileOf? files directory symbol = none := by
  unfold bars
  split
  · rename_i none
    exact iff_of_true rfl none
  · rename_i path found
    refine iff_of_false (fun failed => ?_) (by rw [found]; exact Option.some_ne_none path)
    split at failed
    · cases failed
    · rename_i content _
      cases read : barsOfRecords path symbol (Records.ofText content) <;> rw [read] at failed <;> cases failed

theorem mem_symbols_iff (listed : Directory.symbols files directory = .ok symbols) : symbol ∈ symbols ↔
    ∃ entry ∈ files.entries directory, isTable entry.1 ∧ Text.upper (stemAndEnding entry.1).1 = symbol := by
  unfold Directory.symbols at listed
  split at listed
  · cases listed
    rw [Dictionary.mem_names_ofList, List.map_map, List.mem_map]
    simp only [List.mem_filter, and_assoc, Function.comp_apply]
  · cases listed

theorem lacks_iff (plain : ∀ entry ∈ files.entries directory, '/' ∉ entry.1.toList)
    (listed : Directory.symbols files directory = .ok symbols) (member : symbol ∈ symbols) {asked : String}
    (form : asked ∈ [symbol, Universe.standardForm symbol]) : (source files directory).Lacks asked ↔
      (asked = "" → ¬files.isFile (Files.join directory ".csv")) ∧
        ∀ entry ∈ files.entries directory, ¬Serves asked entry := by
  obtain ⟨entry, inside, -, rfl⟩ := (mem_symbols_iff listed).1 member
  have upper_plain := slash_not_mem_upper fun slash => plain entry inside (mem_of_mem_stem slash)
  refine bars_eq_noData_iff.trans (fileOf?_eq_none_iff ?_)
  rcases List.mem_cons.1 form with rfl | form
  · exact upper_plain
  · exact List.mem_singleton.1 form ▸ slash_not_mem_standardForm upper_plain

/-- A table with a plain name is taken for that of the symbol under which it is listed. -/
theorem serves_upper (table : isTable entry.1) (file : entry.2) (plain : Text.IsPlain (stemAndEnding entry.1).1) :
    Serves (Text.upper (stemAndEnding entry.1).1) entry :=
  ⟨table, file, Text.sameIgnoringCase_upper plain⟩

end Directory

namespace Store
variable {store : Store} {symbol : String} {symbols : List String}

theorem mem_symbols_iff (listed : store.symbols = .ok symbols) :
    store.ready ∧ (symbol ∈ symbols ↔ store.rowsOf symbol ≠ []) := by
  unfold Store.symbols access at listed
  split at listed
  · rename_i ready
    cases listed
    refine ⟨ready, ?_⟩
    rw [Dictionary.mem_names_ofList, List.map_map, List.mem_map, ne_eq, rowsOf, List.filter_eq_nil_iff]
    simp
  · cases listed

theorem lacks_iff (listed : store.symbols = .ok symbols) (asked : String) :
    store.source.Lacks asked ↔ asked ∉ symbols := by
  obtain ⟨ready, listed_iff⟩ := @mem_symbols_iff store asked symbols listed
  refine bars_eq_noData_iff.trans ?_
  rw [and_iff_right ready, listed_iff, not_ne_iff]

end Store

/-- A directory has bars of a symbol that it lists, in the form in which it is listed or in the one in which it is looked
up, if and only if a file may be taken for that of the symbol in this form (or its form is blank and a file is named by an
ending alone). For each file with a plain name it has bars of the symbol that it lists for it. A database has bars of every
symbol that it lists; in the form in which a symbol is looked up it has them if and only if it lists this form, too. -/
theorem listed_symbols_found {files : Files} {directory : String}
    (plain : ∀ entry ∈ files.entries directory, '/' ∉ entry.1.toList) (store : Store) :
    (∀ symbols, (Directory.source files directory).symbols = .ok symbols →
      (∀ symbol ∈ symbols, ∀ asked ∈ [symbol, Universe.standardForm symbol],
        ((Directory.source files directory).Lacks asked ↔
          (asked = "" → ¬files.isFile (Files.join directory ".csv")) ∧
            ∀ entry ∈ files.entries directory, ¬Directory.Serves asked entry)) ∧
      ∀ entry ∈ files.entries directory, Directory.isTable entry.1 → entry.2 →
        Text.IsPlain (Directory.stemAndEnding entry.1).1 → ∃ symbol ∈ symbols,
          symbol = Text.upper (Directory.stemAndEnding entry.1).1 ∧ ¬(Directory.source files directory).Lacks symbol ∧
          (Text.trim (Directory.stemAndEnding entry.1).1 = (Directory.stemAndEnding entry.1).1 →
            Universe.standardForm symbol = symbol)) ∧
    ∀ symbols, store.source.symbols = .ok symbols → ∀ symbol ∈ symbols, ¬store.source.Lacks symbol ∧
      (store.source.Lacks (Universe.standardForm symbol) ↔ Universe.standardForm symbol ∉ symbols) := by
  constructor
  · intro symbols listed
    refine ⟨fun symbol member asked => Directory.lacks_iff plain listed member, fun entry inside table file letters => ?_⟩
    have member := (Directory.mem_symbols_iff listed).2 ⟨entry, inside, table, rfl⟩
    refine ⟨_, member, rfl, fun lacks => ?_, fun trimmed => ?_⟩
    · have unserved := ((Directory.lacks_iff plain listed member List.mem_cons_self).1 lacks).2
      exact unserved entry inside (Directory.serves_upper table file letters)
    · have stays := Text.trim_upper_trim (Directory.stemAndEnding entry.1).1
      rw [trimmed] at stays
      rw [Universe.standardForm, stays, Text.upper_upper]
  · intro symbols listed symbol member
    exact ⟨fun lacks => (Store.lacks_iff listed symbol).1 lacks member, Store.lacks_iff listed _⟩

namespace Source.Sample

def holding (name : String) : Files := ⟨[(["bars", name], .text "date,open,high,low,close,volume\n")]⟩

def keeping (symbol : String) : Store :=
  ⟨true, [⟨symbol, "2024-01-15", 1, 2, 0.5, 1.5, 10, none⟩], .empty⟩

end Source.Sample

open Source.Sample (holding keeping)

theorem listed_symbols_found_sample :
    (∀ entry ∈ (holding "a.csv").entries "bars", '/' ∉ entry.1.toList) ∧
      (Directory.source (holding "a.csv") "bars").symbols = .ok ["A"] ∧
      ¬(Directory.source (holding "a.csv") "bars").Lacks "A" ∧ (keeping "a").source.symbols = .ok ["a"] ∧
      ¬(keeping "a").source.Lacks "a" ∧ (keeping "a").source.Lacks (Universe.standardForm "a") := by
  have entries : (holding "a.csv").entries "bars" = [("a.csv", true)] := by decide
  have plain : ∀ entry ∈ (holding "a.csv").entries "bars", '/' ∉ entry.1.toList := by
    rw [entries]
    decide
  have listed : (Directory.source (holding "a.csv") "bars").symbols = .ok ["A"] := rfl
  have listed' : (keeping "a").source.symbols = .ok ["a"] := rfl
  obtain ⟨in_directory, in_database⟩ := listed_symbols_found plain (keeping "a")
  obtain ⟨found, lacks_iff⟩ := in_database _ listed' "a" List.mem_cons_self
  refine ⟨plain, listed, fun lacks => ?_, listed', found, lacks_iff.2 (by decide +kernel)⟩
  have unserved := ((in_directory _ listed).1 "A" List.mem_cons_self "A" List.mem_cons_self).1 lacks
  exact unserved.2 ("a.csv", true) (entries ▸ List.mem_cons_self) ⟨rfl, rfl, by decide⟩

/-- The upper case of this name differs from it in a letter that is not one of A to Z. -/
theorem exists_listed_lacking : ∃ files directory symbol,
    (Directory.source files directory).symbols = .ok [symbol] ∧ Universe.standardForm symbol = symbol ∧
      (Directory.source files directory).Lacks symbol :=
  ⟨holding "é.csv", "bars", "É", rfl, by decide +kernel, Directory.bars_eq_noData_iff.2 (by decide +kernel)⟩

end Screener
