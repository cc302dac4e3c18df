import Screener.Proofs.Source.Tables

/-! The bars of a file whose columns or records stand in another order. Which cell stands under which name does not change
with the order of the columns, and sorting by date undoes any order of the records if no two have one date. -/
namespace Screener.Directory
open Calendar (Timestamp)
open Records (Record)

/-- The fields at these places, one after the other. -/
def pick (order : List Nat) (fields : List String) : List String := order.map fun i => fields.getD i ""

/-- The second record is the first with its fields in another order, or neither has the right number of fields. -/
structure Turned (order : List Nat) (width : Nat) (fields turned : List String) : Prop where
  even : fields.length = width → turned = pick order fields
  uneven : fields.length ≠ width → turned.length ≠ width

instance {order : List Nat} {width : Nat} {fields turned : List String} : Decidable (Turned order width fields turned) :=
  decidable_of_iff
    ((fields.length = width → turned = pick order fields) ∧ (fields.length ≠ width → turned.length ≠ width))
    ⟨fun ⟨even, uneven⟩ => ⟨even, uneven⟩, fun ⟨even, uneven⟩ => ⟨even, uneven⟩⟩

section
variable {order : List Nat} {header fields : List String} {symbol : String} {bar : Bar}

private theorem length_pick (permuted : order.Perm (List.range header.length)) (fields : List String) :
    (pick order fields).length = header.length := by
  rw [pick, List.length_map, permuted.length_eq, List.length_range]

private theorem pick_range (fields : List String) : pick (List.range fields.length) fields = fields := by
  refine List.ext_getElem (by simp [pick]) fun i _ inside => ?_
  simp [pick, inside]

private theorem cells_pick (order : List Nat) (header fields : List String) :
    cells (pick order header) (pick order fields) =
    order.map fun i => (Text.lower (Text.trim (header.getD i "")), fields.getD i "") := by
  rw [cells, columnNames, pick, pick, List.map_map, List.zip_map']
  rfl

private theorem cells_perm (permuted : order.Perm (List.range header.length)) (width : fields.length = header.length) :
    (cells (pick order header) (pick order fields)).Perm (cells header fields) := by
  have plain : cells header fields =
      cells (pick (List.range header.length) header) (pick (List.range header.length) fields) := by
    rw [pick_range, ← width, pick_range]
  rw [plain, cells_pick, cells_pick]
  exact permuted.map _

private theorem columnNames_perm (permuted : order.Perm (List.range header.length)) :
    (columnNames (pick order header)).Perm (columnNames header) := by
  have picked : (pick order header).Perm (pick (List.range header.length) header) := permuted.map _
  rw [pick_range] at picked
  exact picked.map _

theorem Shows.of_perm {a b : List (String × String)} (same : a.Perm b) {column : String} {x : Float}
    (shows : Shows a column x) : Shows b column x := by
  obtain ⟨text, member, read⟩ := shows
  exact ⟨text, same.mem_iff.1 member, read⟩

theorem Says.of_perm {a b : List (String × String)} (same : a.Perm b) (told : Says a symbol bar) :
    Says b symbol bar where
  symbol := told.symbol
  date := by simpa only [same.mem_iff] using told.date
  opening := told.opening.of_perm same
  high := told.high.of_perm same
  low := told.low.of_perm same
  close := told.close.of_perm same
  volume := told.volume.of_perm same
  further name := by simpa only [same.mem_iff] using told.further name
  numbers there := (told.numbers there).of_perm same

theorem IsHeader.of_perm {a b : List String} (same : a.Perm b) (sound : IsHeader a) : IsHeader b where
  required name required := same.mem_iff.1 (sound.required name required)
  free name member := sound.free name (same.mem_iff.2 member)

theorem reads_turned_iff (permuted : order.Perm (List.range header.length)) {turned : List String}
    (turn : Turned order header.length fields turned) :
    Reads (pick order header) symbol turned bar ↔ Reads header symbol fields bar := by
  by_cases width : fields.length = header.length
  · have same := cells_perm permuted width
    obtain rfl := turn.even width
    constructor
    · exact fun reads => ⟨width, reads.told.of_perm same⟩
    · exact fun reads => ⟨by rw [length_pick permuted, length_pick permuted], reads.told.of_perm same.symm⟩
  · have turned_width := turn.uneven width
    rw [← length_pick permuted header] at turned_width
    exact ⟨fun reads => absurd reads.width turned_width, fun reads => absurd reads.width width⟩

theorem reads_all_turned_iff (permuted : order.Perm (List.range header.length))
    {rows turned : List (List String)}
    (turns : List.Forall₂ (Turned order header.length) rows turned) {read : List Bar} :
    List.Forall₂ (Reads (pick order header) symbol) turned read ↔ List.Forall₂ (Reads header symbol) rows read := by
  induction turns generalizing read with
  | nil => rw [List.forall₂_nil_left_iff, List.forall₂_nil_left_iff]
  | cons first _ ih =>
    rw [List.forall₂_cons_left_iff, List.forall₂_cons_left_iff]
    simp only [reads_turned_iff permuted first, ih]

private theorem headerOf_turned {table turned : List (List String)}
    (permuted : order.Perm (List.range (headerOf table).length))
    (turns : List.Forall₂ (Turned order (headerOf table).length) table turned) :
    headerOf turned = pick order (headerOf table) := by
  cases turns with
  | nil =>
    obtain rfl : order = [] := List.perm_nil.1 permuted
    rfl
  | cons first _ => exact first.even rfl

end

def Dated (header fields : List String) (date : Timestamp) : Prop :=
  ∃ text, ("date", text) ∈ cells header fields ∧ Timestamp.ofText? text = some date

/-- No two records have one date. -/
def Apart (header : List String) (rows : List (List String)) : Prop :=
  rows.Pairwise fun a b => ∀ date, Dated header a date → ¬Dated header b date

section
variable {header : List String} {symbol : String} {rows others : List (List String)} {read found : List Bar}

private theorem sorts_bar : Scan.Sorts fun a b : Bar => a.date.notAfter b.date :=
  @Scan.sorts_of_key Bar _ Int _ (·.date.rank) fun _ _ => decide_eq_true_iff

private theorem dates_apart (apart : Apart header rows) (each : List.Forall₂ (Reads header symbol) rows read) :
    (read.map (·.date)).Nodup := by
  induction each with
  | nil => exact .nil
  | cons first rest ih =>
    obtain ⟨fresh, apart_rest⟩ := List.pairwise_cons.1 apart
    refine List.nodup_cons.2 ⟨fun again => ?_, ih apart_rest⟩
    obtain ⟨bar, member, same⟩ := List.mem_map.1 again
    obtain ⟨row, there, reads⟩ := exists_right rest.flip member
    have dated := reads.told.date
    rw [show bar.date = _ from same] at dated
    exact fresh row there _ first.told.date dated

private theorem byDate_eq_of_perm (apart : Apart header rows) (each : List.Forall₂ (Reads header symbol) rows read)
    (perm : read.Perm found) : Bar.byDate read = Bar.byDate found := by
  refine sorts_bar.eq_of_perm perm fun a left b right forth back => ?_
  have same := Timestamp.rank_injective (le_antisymm (of_decide_eq_true forth) (of_decide_eq_true back))
  exact List.inj_on_of_nodup_map (dates_apart apart each) left right same

theorem Apart.of_perm (perm : others.Perm rows) (apart : Apart header rows) : Apart header others :=
  perm.symm.pairwise apart fun differ date left right => differ date right left

private theorem exists_read_of_perm (apart : Apart header rows) (perm : others.Perm rows)
    (each : List.Forall₂ (Reads header symbol) rows read) :
    ∃ again, List.Forall₂ (Reads header symbol) others again ∧ Bar.byDate again = Bar.byDate read := by
  obtain ⟨again, reads, same⟩ := List.perm_comp_forall₂ perm each
  exact ⟨again, reads, byDate_eq_of_perm (apart.of_perm perm) reads same⟩

private theorem filter_byDate (read : List Bar) (date : Timestamp) :
    (Bar.byDate read).filter (·.date = date) = read.filter (·.date = date) := by
  rw [Bar.byDate, sorts_bar.filter_mergeSort]
  refine List.mergeSort_of_pairwise (List.pairwise_of_forall_mem_list fun a left b right => ?_)
  have same : a.date = b.date :=
    (of_decide_eq_true (List.mem_filter.1 left).2).trans (of_decide_eq_true (List.mem_filter.1 right).2).symm
  exact decide_eq_true (le_of_eq (congrArg Timestamp.rank same))

end

def Holds (files : Files) (directory symbol : String) (table : List (List String)) : Prop :=
  ∃ path content, fileOf? files directory symbol = some path ∧ files.text? path = some content ∧
    (Records.ofText content).map Record.fields = table

section
variable {files files' : Files} {directory directory' symbol : String} {table : List (List String)} {found : List Bar}

theorem bars_eq_ok_iff (holds : Holds files directory symbol table)
    (distinct : (columnNames (headerOf table)).Nodup) :
    bars files directory symbol = .ok found ↔ IsHeader (columnNames (headerOf table)) ∧
      ∃ read, List.Forall₂ (Reads (headerOf table) symbol) table.tail read ∧ Bar.byDate read = found := by
  obtain ⟨path, content, placed, text, fields⟩ := holds
  rw [← barsOfRecords_eq_ok_iff fields distinct, bars]
  simp only [placed, text]
  cases barsOfRecords path symbol (Records.ofText content) <;> simp [Except.mapError]

private theorem bars_turned {turned : List (List String)} (holds : Holds files directory symbol table)
    (distinct : (columnNames (headerOf table)).Nodup) (held : Holds files' directory' symbol turned) {order : List Nat}
    (permuted : order.Perm (List.range (headerOf table).length))
    (turns : List.Forall₂ (Turned order (headerOf table).length) table turned) :
    bars files' directory' symbol = .ok found ↔ bars files directory symbol = .ok found := by
  have names := columnNames_perm permuted
  have header := headerOf_turned permuted turns
  have rows : List.Forall₂ (Turned order (headerOf table).length) table.tail turned.tail := by
    cases turns with
    | nil => exact .nil
    | cons _ rest => exact rest
  have sound : IsHeader (columnNames (headerOf turned)) ↔ IsHeader (columnNames (headerOf table)) := by
    rw [header]
    exact ⟨.of_perm names, .of_perm names.symm⟩
  have distinct' : (columnNames (headerOf turned)).Nodup := by
    rw [header]
    exact names.nodup_iff.2 distinct
  rw [bars_eq_ok_iff holds distinct, bars_eq_ok_iff held distinct', sound, header]
  exact and_congr_right fun _ => exists_congr fun read => and_congr_left fun _ => reads_all_turned_iff permuted rows

private theorem bars_shuffled {shuffled : List (List String)} (holds : Holds files directory symbol table)
    (distinct : (columnNames (headerOf table)).Nodup) (held : Holds files' directory' symbol shuffled)
    (header : headerOf shuffled = headerOf table) (perm : shuffled.tail.Perm table.tail)
    (apart : Apart (headerOf table) table.tail) :
    bars files' directory' symbol = .ok found ↔ bars files directory symbol = .ok found := by
  have distinct' : (columnNames (headerOf shuffled)).Nodup := by rwa [header]
  rw [bars_eq_ok_iff holds distinct, bars_eq_ok_iff held distinct', header]
  refine and_congr_right fun _ => ⟨?_, ?_⟩
  · rintro ⟨read, each, sorted⟩
    obtain ⟨again, reads, same⟩ := exists_read_of_perm (apart.of_perm perm) perm.symm each
    exact ⟨again, reads, same.trans sorted⟩
  · rintro ⟨read, each, sorted⟩
    obtain ⟨again, reads, same⟩ := exists_read_of_perm apart perm each
    exact ⟨again, reads, same.trans sorted⟩

/-- The file of a symbol whose columns have different names reads the same with its columns in another order, and with
its records in another order if no two have one date. A file that can be read has a bar for each record, with those
further columns whose cells are not blank; the dates ascend, and bars of one date stand as their records do. -/
theorem bars_of_any_arrangement (holds : Holds files directory symbol table)
    (distinct : (columnNames (headerOf table)).Nodup) :
    (∀ files' directory' turned order, Holds files' directory' symbol turned →
      order.Perm (List.range (headerOf table).length) →
      List.Forall₂ (Turned order (headerOf table).length) table turned →
      (bars files' directory' symbol).toOption = (bars files directory symbol).toOption) ∧
    (∀ files' directory' shuffled, Holds files' directory' symbol shuffled →
      headerOf shuffled = headerOf table → shuffled.tail.Perm table.tail → Apart (headerOf table) table.tail →
      (bars files' directory' symbol).toOption = (bars files directory symbol).toOption) ∧
    ∀ found, bars files directory symbol = .ok found →
      ∃ read, List.Forall₂ (Reads (headerOf table) symbol) table.tail read ∧ found.Perm read ∧
        Ascending found ∧ ∀ date, found.filter (·.date = date) = read.filter (·.date = date) := by
  refine ⟨fun _ _ _ _ held permuted turns => toOption_eq_of_ok_iff (bars_turned holds distinct held permuted turns),
    fun _ _ _ held header perm apart => toOption_eq_of_ok_iff (bars_shuffled holds distinct held header perm apart),
    fun found done => ?_⟩
  obtain ⟨-, read, each, rfl⟩ := (bars_eq_ok_iff holds distinct).1 done
  exact ⟨read, each, List.mergeSort_perm _ _, Store.ascending_byDate read, filter_byDate read⟩

end

namespace Sample

def filesWith (text : String) : Files := ⟨[(["bars", "A.csv"], .text text)]⟩

def plainText : String := "Date,open,high,low,close,volume,vwap\n2024-01-15,1,1,1,1,1,5\n2024-01-16,2,2,2,2,2,\n"

def turnedText : String := "vwap,volume,close,low,high,open,Date\n5,1,1,1,1,1,2024-01-15\n,2,2,2,2,2,2024-01-16\n"

def shuffledText : String := "Date,open,high,low,close,volume,vwap\n2024-01-16,2,2,2,2,2,\n2024-01-15,1,1,1,1,1,5\n"

def header : List String := ["Date", "open", "high", "low", "close", "volume", "vwap"]

def rows : List (List String) :=
  [["2024-01-15", "1", "1", "1", "1", "1", "5"], ["2024-01-16", "2", "2", "2", "2", "2", ""]]

private theorem holds_of_text {text : String} {table : List (List String)}
    (listed : text ∈ [plainText, turnedText, shuffledText])
    (fields : (Records.ofText text).map Record.fields = table) : Holds (filesWith text) "bars" "A" table := by
  have there : ∀ text ∈ [plainText, turnedText, shuffledText], fileOf? (filesWith text) "bars" "A" = some "bars/A.csv" ∧
      (filesWith text).text? "bars/A.csv" = some text := by decide +kernel
  exact ⟨_, text, (there text listed).1, (there text listed).2, fields⟩

private theorem apart_rows : Apart header rows := by
  have names : columnNames header = ["date", "open", "high", "low", "close", "volume", "vwap"] := by decide +kernel
  have only (rest : List String) (first text : String) (member : ("date", text) ∈ cells header (first :: rest)) :
      text = first := by
    rw [cells, names, List.zip_cons_cons] at member
    rcases List.mem_cons.1 member with same | behind
    · exact congrArg Prod.snd same
    · exact absurd (List.of_mem_zip behind).1 (by decide)
  have differ : Timestamp.ofText? "2024-01-15" ≠ Timestamp.ofText? "2024-01-16" := by decide +kernel
  rw [Apart, rows, List.pairwise_pair]
  rintro date ⟨text, member, read⟩ ⟨text', member', read'⟩
  obtain rfl := only _ _ text member
  obtain rfl := only _ _ text' member'
  exact differ (read.trans read'.symm)

end Sample

open Directory.Sample

theorem bars_of_any_arrangement_sample :
    Holds (filesWith plainText) "bars" "A" (header :: rows) ∧ (columnNames header).Nodup ∧ Apart header rows ∧
      (bars (filesWith turnedText) "bars" "A").toOption = (bars (filesWith plainText) "bars" "A").toOption ∧
      (bars (filesWith shuffledText) "bars" "A").toOption = (bars (filesWith plainText) "bars" "A").toOption ∧
      ∃ found, bars (filesWith plainText) "bars" "A" = .ok found ∧
        ∃ read, List.Forall₂ (Reads header "A") rows read ∧ found.Perm read := by
  have holds : Holds (filesWith plainText) "bars" "A" (header :: rows) := holds_of_text (by simp) (by decide +kernel)
  have turned : Holds (filesWith turnedText) "bars" "A" ((header :: rows).map List.reverse) :=
    holds_of_text (by simp) (by decide +kernel)
  have shuffled : Holds (filesWith shuffledText) "bars" "A" (header :: rows.reverse) :=
    holds_of_text (by simp) (by decide +kernel)
  have distinct : (columnNames header).Nodup := by decide +kernel
  have read : (bars (filesWith plainText) "bars" "A").toOption.isSome := by decide +kernel
  obtain ⟨found, done⟩ := Option.isSome_iff_exists.1 read
  have done := toOption_eq_some_iff.1 done
  obtain ⟨columns, records, success⟩ := bars_of_any_arrangement holds distinct
  obtain ⟨read, each, same, -⟩ := success found done
  refine ⟨holds, distinct, apart_rows, ?_, ?_, found, done, read, each, same⟩
  · exact columns _ _ _ [6, 5, 4, 3, 2, 1, 0] turned (by decide) (by decide)
  · exact records _ _ _ shuffled rfl (List.reverse_perm rows) apart_rows

end Screener.Directory
