import Screener.Proofs.Evaluation.Acceptance
import Screener.Proofs.Except
import Screener.Proofs.Filter.RoundTrip
import Screener.Proofs.Store.Bars
import Screener.Proofs.Text.Case
import Screener.Source.Directory

/-! The names under which filters find the columns of a source. A filter has its names without blanks around them and
without the capitals A to Z; a file has its headers in lower case altogether, and a table its names as they are. -/
namespace Screener
open Screener.Filter (Expression Operand IsName)
open Json (Value Fields)

namespace Filter

/-- An operand of a filter document names its column with a text. -/
def NamesColumn (doc : Value) (name : String) : Prop :=
  ∃ (i : Nat) (side : String) (fields : Fields), (side = "left" ∨ side = "right") ∧
    doc.at? ["conditions", i.repr, side] = some (.object fields) ∧
    (fields.lookup "type" = some (.text "column") ∧ fields.lookup "name" = some (.text name) ∨
      fields.lookup "type" = some (.text "indicator") ∧ fields.lookup "column" = some (.text name))

open Grammar

variable {doc : Value} {e : Expression} {name : String}

private theorem name_of_given {fields : Fields} {key column : String} (given : Given IsColumnName fields key column)
    (there : fields.lookup key = some (.text name)) : column = Text.lowerAscii (Text.trim name) := by
  obtain ⟨value, found, read⟩ := given
  obtain rfl : Value.text name = value := Option.some.inj (there.symm.trans found)
  obtain ⟨-⟩ := read
  rfl

private theorem operand_of_named {fields : Fields} {operand : Operand} (read : IsOperand (.object fields) operand)
    (named : fields.lookup "type" = some (.text "column") ∧ fields.lookup "name" = some (.text name) ∨
      fields.lookup "type" = some (.text "indicator") ∧ fields.lookup "column" = some (.text name)) :
    ∃ timeframe, operand.Reads (timeframe, Text.lowerAscii (Text.trim name)) := by
  cases read with
  | constant kind => simp [kind] at named
  | column kind only given placed =>
    have there : fields.lookup "name" = some (.text name) := by simpa [kind] using named
    rw [← name_of_given given there]
    exact ⟨_, .column⟩
  | indicator kind only computed given placed =>
    have there : fields.lookup "column" = some (.text name) := by simpa [kind] using named
    rw [← name_of_given given there]
    exact ⟨_, .indicator⟩

/-- The filter reads a column under the name in the document, without the blanks around it and without capitals. -/
theorem reads_of_named (read : Expression.ofJson doc = .ok e) (named : NamesColumn doc name) :
    ∃ timeframe, e.Reads (timeframe, Text.lowerAscii (Text.trim name)) := by
  obtain ⟨i, side, fields, either, there, named⟩ := named
  obtain ⟨_, _, listed, _, each⟩ := (Checked.toExcept_eq_ok_iff.trans Document.filter_passes).1 read
  rw [Value.at?_cons, Value.child?, listed, Option.bind_some, Value.at?_cons] at there
  obtain ⟨item, here, below⟩ := Option.bind_eq_some_iff.1 there
  rw [Value.child?, Json.index?_repr, Option.bind_some] at here
  obtain ⟨c, member, condition⟩ := exists_right each (List.mem_of_getElem? here)
  obtain @⟨parts, _, _, left, _, right⟩ := condition
  rw [Value.at?_cons, Value.child?] at below
  have reads {operand : Operand} (given : Given IsOperand parts side operand) :
      ∃ timeframe, operand.Reads (timeframe, Text.lowerAscii (Text.trim name)) := by
    obtain ⟨value, found, denotes⟩ := given
    obtain rfl : value = .object fields := by simpa [found] using below
    exact operand_of_named denotes named
  rcases either with rfl | rfl
  · exact (reads left).imp fun _ on_left => ⟨c, member, .inl on_left⟩
  · exact (reads right).imp fun _ on_right => ⟨c, member, .inr on_right⟩

private theorem isName_of_reads (read : Expression.ofJson doc = .ok e) {source : Timeframe × String}
    (reads : e.Reads source) : IsName source.2 := by
  obtain ⟨c, listed, reads⟩ := reads
  have denotes := (Checked.toExcept_eq_ok_iff.trans Document.filter_passes).1 read
  have sound : c.WellFormed := wellFormed_of_read denotes c listed
  have named {operand : Operand} (own : operand.WellFormed) (reads : operand.Reads source) : IsName source.2 := by
    cases reads with
    | column => exact own.1
    | indicator => exact own.2.1
  exact reads.elim (named sound.1) (named sound.2)

def comparingDocument (name : String) : Value :=
  let left : Value := .object [("type", .text "column"), ("name", .text name)]
  let right : Value := .object [("type", .text "constant"), ("value", .number (.integer 0))]
  .object [("logic", .text "AND"),
    ("conditions", .array [.object [("left", left), ("operator", .text ">"), ("right", right)]])]

def comparing (name : String) : Expression :=
  ⟨.all, [⟨.column (Text.lowerAscii (Text.trim name)) ⟨.daily, 0⟩, .greater, .constant (Float.ofInt 0)⟩],
    le_rfl, (by decide : 1 ≤ mostConditions)⟩

private theorem namesColumn_comparing (name : String) : NamesColumn (comparingDocument name) name :=
  ⟨0, "left", [("type", .text "column"), ("name", .text name)], .inl rfl, rfl, .inl ⟨rfl, rfl⟩⟩

private theorem ofJson_comparing (named : Text.trim name ≠ "") :
    Expression.ofJson (comparingDocument name) = .ok (comparing name) := by
  have zero : (Json.Number.integer 0).toFloat.isFinite = true := by decide
  refine (Checked.toExcept_eq_ok_iff.trans Document.filter_passes).2 ?_
  refine .object (by simp [Only]) ⟨_, rfl, .all⟩ rfl ⟨le_rfl, (by decide : 1 ≤ mostConditions)⟩ (.cons ?_ .nil)
  refine .object (by simp [Only]) ⟨_, rfl, ?_⟩ ⟨_, rfl, .greater⟩ ⟨_, rfl, ?_⟩
  · exact .column rfl (by simp [Only]) ⟨_, rfl, .text named⟩ ⟨.absent rfl, .absent rfl⟩
  · exact .constant rfl (by simp [Only]) ⟨_, rfl, .number zero⟩

private theorem column_of_reads_comparing {source : Timeframe × String} (reads : (comparing name).Reads source) :
    source.2 = Text.lowerAscii (Text.trim name) := by
  obtain ⟨c, inside, reads⟩ := reads
  rw [comparing, List.mem_singleton] at inside
  subst inside
  simp only [Operand.reads_iff, Operand.source?, Option.some.injEq, reduceCtorEq, or_false] at reads
  rw [← reads]

end Filter

namespace Directory

/-- A field of the first record of a symbol's file is a spelling of a column. -/
def Spells (files : Files) (directory symbol spelling column : String) : Prop :=
  ∃ path content record rest, fileOf? files directory symbol = some path ∧ files.text? path = some content ∧
    Records.ofText content = record :: rest ∧ spelling ∈ record.fields ∧ Text.lower (Text.trim spelling) = column

private theorem mem_of_extraColumns {path : String} {date : Nat} {names : List (String × Nat)}
    {extra : List (Nat × String)}
    (found : extraColumns path date names = .ok extra) {place : Nat × String} (member : place ∈ extra) :
    place.2 ∈ names.map Prod.fst := by
  induction names generalizing extra with
  | nil =>
    obtain rfl : [] = extra := Except.ok.inj found
    cases member
  | cons entry rest ih =>
    obtain ⟨name, i⟩ := entry
    unfold extraColumns at found
    split at found
    · exact List.mem_cons_of_mem _ (ih found member)
    · split at found
      · cases found
      · obtain ⟨others, behind, rfl⟩ := map_eq_ok_iff.1 found
        rcases List.mem_cons.1 member with rfl | inside
        · exact List.mem_cons_self
        · exact List.mem_cons_of_mem _ (ih behind inside)

private theorem spelled_of_ofHeader {path : String} {header : List String} {layout : Layout}
    (read : Layout.ofHeader path header = .ok layout) {place : Nat × String} (member : place ∈ layout.extra) :
    ∃ spelling ∈ header, Text.lower (Text.trim spelling) = place.2 := by
  unfold Layout.ofHeader at read
  obtain ⟨_, -, read⟩ := bind_eq_ok_iff.1 read
  obtain ⟨_, -, read⟩ := bind_eq_ok_iff.1 read
  obtain ⟨_, -, read⟩ := bind_eq_ok_iff.1 read
  obtain ⟨_, -, read⟩ := bind_eq_ok_iff.1 read
  obtain ⟨_, -, read⟩ := bind_eq_ok_iff.1 read
  obtain ⟨_, -, read⟩ := bind_eq_ok_iff.1 read
  obtain ⟨extra, found, read⟩ := bind_eq_ok_iff.1 read
  obtain rfl := Except.ok.inj read
  have named := mem_of_extraColumns found member
  rwa [List.zipIdx_map_fst, List.mem_map] at named

private theorem contains_of_lineExtra {line : Line} {found extra : Dictionary Float} {places : List (Nat × String)}
    (read : line.extra found places = .ok extra) {column : String} (there : extra.contains column) :
    found.contains column ∨ ∃ place ∈ places, place.2 = column := by
  induction places generalizing found with
  | nil =>
    obtain rfl : found = extra := Except.ok.inj read
    exact .inl there
  | cons place rest ih =>
    obtain ⟨i, name⟩ := place
    unfold Line.extra at read
    split at read
    · exact (ih read).imp_right fun ⟨place, inside, same⟩ => ⟨place, List.mem_cons_of_mem _ inside, same⟩
    · obtain ⟨x, -, read⟩ := bind_eq_ok_iff.1 read
      rcases ih read with put | ⟨place, inside, same⟩
      · rw [Dictionary.contains_insert, Bool.or_eq_true, beq_iff_eq] at put
        rcases put with rfl | put
        · exact .inr ⟨_, List.mem_cons_self, rfl⟩
        · exact .inl put
      · exact .inr ⟨place, List.mem_cons_of_mem _ inside, same⟩

private theorem contains_of_lineBar {line : Line} {symbol : String} {layout : Layout} {bar : Bar}
    (read : line.bar symbol layout = .ok bar) {column : String} (there : bar.extra.contains column) :
    ∃ place ∈ layout.extra, place.2 = column := by
  unfold Line.bar at read
  dsimp only at read
  split at read
  · cases read
  · obtain ⟨_, -, read⟩ := bind_eq_ok_iff.1 read
    obtain ⟨_, -, read⟩ := bind_eq_ok_iff.1 read
    obtain ⟨_, -, read⟩ := bind_eq_ok_iff.1 read
    obtain ⟨_, -, read⟩ := bind_eq_ok_iff.1 read
    obtain ⟨_, -, read⟩ := bind_eq_ok_iff.1 read
    obtain ⟨extra, found, read⟩ := bind_eq_ok_iff.1 read
    obtain rfl := Except.ok.inj read
    exact (contains_of_lineExtra found there).resolve_left (by simp [Dictionary.contains])

private theorem contains_of_barsOf {path symbol : String} {width index : Nat} {layout : Layout}
    {records : List Records.Record}
    {bars : List Bar} (read : barsOf path symbol width layout index records = .ok bars) {bar : Bar}
    (member : bar ∈ bars) {column : String} (there : bar.extra.contains column) :
    ∃ place ∈ layout.extra, place.2 = column := by
  induction records generalizing index bars with
  | nil =>
    obtain rfl : [] = bars := Except.ok.inj read
    cases member
  | cons record rest ih =>
    unfold barsOf at read
    split at read
    · cases read
    · obtain ⟨first, read_first, read⟩ := bind_eq_ok_iff.1 read
      obtain ⟨others, read_others, read⟩ := bind_eq_ok_iff.1 read
      obtain rfl := Except.ok.inj read
      rcases List.mem_cons.1 member with rfl | inside
      · exact contains_of_lineBar read_first there
      · exact ih read_others inside

private theorem exists_spelling {files : Files} {directory symbol : String} {found : List Bar}
    (read : bars files directory symbol = .ok found) {bar : Bar} (member : bar ∈ found) {column : String}
    (there : bar.extra.contains column) : ∃ spelling, Spells files directory symbol spelling column := by
  unfold bars at read
  split at read
  · cases read
  · rename_i path file
    split at read
    · cases read
    · rename_i content text
      cases made : barsOfRecords path symbol (Records.ofText content) with
      | error fault =>
        rw [made] at read
        cases read
      | ok sorted =>
        rw [made] at read
        obtain rfl := Except.ok.inj read
        unfold barsOfRecords at made
        obtain ⟨layout, header, made⟩ := bind_eq_ok_iff.1 made
        obtain ⟨unsorted, rows, made⟩ := bind_eq_ok_iff.1 made
        obtain rfl := Except.ok.inj made
        obtain ⟨place, listed, rfl⟩ := contains_of_barsOf rows (List.mem_mergeSort.1 member) there
        obtain ⟨spelling, inside, same⟩ := spelled_of_ofHeader header listed
        cases records : Records.ofText content with
        | nil =>
          rw [records] at inside
          cases inside
        | cons record rest =>
          rw [records] at inside
          exact ⟨spelling, path, content, record, rest, file, text, records, inside, same⟩

end Directory

open Evaluation (Problem)
open Evaluation.Frame (prepare prepare_eq_error_iff)

/-- A filter document that names a column with the spelling, in whatever case of the letters A to Z, gives a filter that
reads the column and does not miss it in the bars. -/
def FoundAs (symbol : String) (bars : List Bar) (spelling column : String) : Prop :=
  ∀ name doc e, Text.sameIgnoringCase name spelling → Expression.ofJson doc = .ok e → Filter.NamesColumn doc name →
    (∃ timeframe, e.Reads (timeframe, column)) ∧
      ∀ base timeframe, prepare (.ofBars symbol base bars) e ≠ .error (.unresolved symbol column timeframe)

private theorem carries_ofBars {symbol column : String} {bars : List Bar} (there : ∃ bar ∈ bars, bar.hasColumn column)
    (base timeframe : Timeframe) : (History.ofBars symbol base bars).Carries (timeframe, column) := by
  by_cases own : timeframe = base
  · have given : (History.ofBars symbol base bars).bars? timeframe = some bars := by
      simp [History.bars?, History.ofBars, own]
    rwa [History.Carries, History.barsFor, given]
  · have resampled : (History.ofBars symbol base bars).bars? timeframe = none := by
      simp [History.bars?, History.ofBars, own]
    rwa [History.carries_of_resampled resampled, History.bars_ofBars]

theorem foundAs {symbol spelling column : String} {bars : List Bar} {bar : Bar} (member : bar ∈ bars)
    (there : bar.extra.contains column) (same : Text.lowerAscii (Text.trim spelling) = column) :
    FoundAs symbol bars spelling column := by
  intro name doc e alike read named
  have its_name : Text.lowerAscii (Text.trim name) = column := by
    rw [← Text.trim_lowerAscii, eq_of_beq alike, Text.trim_lowerAscii, same]
  refine ⟨its_name ▸ Filter.reads_of_named read named, fun base timeframe missed => ?_⟩
  cases prepare_eq_error_iff.1 missed with
  | column source _ _ missing =>
    refine missing (carries_ofBars ⟨bar, member, ?_⟩ base source.1)
    rw [Bar.hasColumn, there, Bool.or_true]

/-- A spelling that is read as another name does not find the column; a document with the spelling shows it. -/
theorem foundAs_iff {symbol spelling column : String} {bars : List Bar} {bar : Bar} (member : bar ∈ bars)
    (there : bar.extra.contains column) (named : Text.trim spelling ≠ "") :
    FoundAs symbol bars spelling column ↔ Text.lowerAscii (Text.trim spelling) = column := by
  refine ⟨fun found => ?_, foundAs member there⟩
  obtain ⟨⟨_, reads⟩, -⟩ := found spelling (Filter.comparingDocument spelling) (Filter.comparing spelling)
    (beq_self_eq_true _) (Filter.ofJson_comparing named) (Filter.namesColumn_comparing spelling)
  exact (Filter.column_of_reads_comparing reads).symm

/-- Every further column of a file has a spelling in its header; the column is found by the spelling if that has no
characters beyond ASCII, and otherwise as far as the two ways of removing capitals agree. A column of a table is
found by its own name if that has no blanks around it and no capitals; no filter reads a column with another name. -/
theorem columns_found_by_name {symbol : String} {bars : List Bar} {bar : Bar} (member : bar ∈ bars) {column : String}
    (there : bar.extra.contains column) (named : Text.trim column ≠ "") :
    (∀ files directory, Directory.bars files directory symbol = .ok bars →
      (∃ spelling, Directory.Spells files directory symbol spelling column) ∧
        ∀ spelling, Directory.Spells files directory symbol spelling column →
          (Text.IsPlain spelling → FoundAs symbol bars spelling column) ∧
            (FoundAs symbol bars spelling column ↔ Text.lowerAscii (Text.trim spelling) = column)) ∧
      ∀ store : Store, store.bars symbol = .ok bars →
        (FoundAs symbol bars column column ↔ Text.lowerAscii (Text.trim column) = column) ∧
          (Text.lowerAscii (Text.trim column) ≠ column →
            ∀ doc e, Expression.ofJson doc = .ok e → ∀ timeframe, ¬e.Reads (timeframe, column)) := by
  refine ⟨fun files directory read => ⟨Directory.exists_spelling read member there, fun spelling spells => ⟨?_, ?_⟩⟩,
    fun store _ => ⟨foundAs_iff member there named, ?_⟩⟩
  · intro plain
    obtain ⟨_, _, _, _, -, -, -, -, rfl⟩ := spells
    exact foundAs member there (Text.lower_of_plain (Text.isPlain_trim plain)).symm
  · refine foundAs_iff member there fun blank => named ?_
    obtain ⟨_, _, _, _, -, -, -, -, rfl⟩ := spells
    rw [blank]
    rfl
  · intro other doc e read timeframe reads
    obtain ⟨-, trimmed, lower⟩ := Filter.isName_of_reads read reads
    exact other (by rw [trimmed, lower])

open Store.Sample (carrying)

private theorem bars_of_table (column : String) (free : Bar.isTaken column = false) :
    (Store.blank.prepared.putAll [carrying column 1.5]).bars "A" = .ok [Store.kept (carrying column 1.5)] := by
  have finite : (carrying column 1.5).HasFiniteExtra := by
    intro entry inside
    obtain rfl := List.mem_singleton.1 inside
    have counted : (1.5 : Float).isFinite = true := by decide
    exact counted
  have storable : (carrying column 1.5).Storable := Store.Sample.storable_carrying.2 free
  rw [Store.Sample.bars_carrying, (Store.barOf_rowFor storable (Store.Sample.readsBack_carrying column)).1 finite]
  rfl

theorem columns_found_by_name_sample :
    ∃ store bars, Store.blank.prepared.insert [carrying "vwap" 1.5] = .ok store ∧ store.bars "A" = .ok bars ∧
      (∃ bar ∈ bars, bar.extra.contains "vwap") ∧ Text.trim "vwap" ≠ "" ∧
      ∀ base timeframe,
        prepare (.ofBars "A" base bars) (Filter.comparing "VWAP") ≠ .error (.unresolved "A" "vwap" timeframe) := by
  have read := bars_of_table "vwap" (by decide)
  have member : Store.kept (carrying "vwap" 1.5) ∈ [Store.kept (carrying "vwap" 1.5)] := List.mem_cons_self
  have there : (Store.kept (carrying "vwap" 1.5)).extra.contains "vwap" := by decide
  have named : Text.trim "vwap" ≠ "" := by decide
  have found := ((columns_found_by_name member there named).2 _ read).1.2 (by decide)
  refine ⟨_, _, Store.Sample.insert_carrying (by decide) _, read, ⟨_, member, there⟩, named, ?_⟩
  exact (found "VWAP" _ _ (by decide) (Filter.ofJson_comparing (by decide)) (Filter.namesColumn_comparing "VWAP")).2

/-- A column with a capital in its name is not found under that name. -/
theorem exists_column_not_found :
    ∃ store bars doc e, Store.blank.prepared.insert [carrying "VWAP" 1.5] = .ok store ∧ store.bars "A" = .ok bars ∧
      (∃ bar ∈ bars, bar.extra.contains "VWAP") ∧ Filter.NamesColumn doc "VWAP" ∧ Expression.ofJson doc = .ok e ∧
      prepare (.ofBars "A" .daily bars) e = .error (.unresolved "A" "vwap" .daily) :=
  ⟨_, _, _, Filter.comparing "VWAP", Store.Sample.insert_carrying (by decide) _, bars_of_table "VWAP" (by decide),
    ⟨_, List.mem_cons_self, by decide⟩, Filter.namesColumn_comparing "VWAP", Filter.ofJson_comparing (by decide), rfl⟩

end Screener
