import Screener.Proofs.Except
import Screener.Proofs.Scan.Sorting
import Screener.Proofs.Store.Bars
import Screener.Source.Directory

/-! What the records of a file say. Columns are found by their names, so of a record nothing counts but which cell stands
under which name, and of the records nothing but their dates and, among those of one date, their order. -/
namespace Screener.Directory
open Calendar (Timestamp)
open Records (Record)

def columnNames (header : List String) : List String := header.map fun name => Text.lower (Text.trim name)

/-- The fields of a record under the names of their columns. -/
def cells (header fields : List String) : List (String × String) := (columnNames header).zip fields

def IsFurther (name : String) : Prop := name ≠ "" ∧ name ≠ "date" ∧ Bar.isStandard name = false

/-- The required columns are there, and no further one has a name that none may have. -/
structure IsHeader (names : List String) : Prop where
  required : ∀ name ∈ requiredColumns, name ∈ names
  free : ∀ name ∈ names, IsFurther name → Bar.isReserved name = false

def Shows (record : List (String × String)) (column : String) (x : Float) : Prop :=
  ∃ text, (column, text) ∈ record ∧ Decimal.number? (Text.trim text) = some x

/-- The bar is what the cells of a record say. It has those further columns whose cells are not blank. -/
structure Says (record : List (String × String)) (symbol : String) (bar : Bar) : Prop where
  symbol : bar.symbol = symbol
  date : ∃ text, ("date", text) ∈ record ∧ Timestamp.ofText? text = some bar.date
  opening : Shows record "open" bar.opening
  high : Shows record "high" bar.high
  low : Shows record "low" bar.low
  close : Shows record "close" bar.close
  volume : Shows record "volume" bar.volume
  further (name : String) :
    bar.extra.contains name ↔ IsFurther name ∧ ∃ text, (name, text) ∈ record ∧ Text.trim text ≠ ""
  numbers {name : String} {x : Float} : bar.extra.get? name = some x → Shows record name x

section
variable {names : List String} {path column : String} {i : Nat}

theorem idxOf?_eq_some_iff (distinct : names.Nodup) :
    names.idxOf? column = some i ↔ names[i]? = some column := by
  rw [List.idxOf?_eq_some_iff, List.getElem?_eq_some_iff]
  refine exists_congr fun inside => and_iff_left_of_imp fun here j before same => ?_
  exact Nat.ne_of_lt before (distinct.getElem_inj_iff.1 (same.trans here.symm))

private theorem place_unique (distinct : names.Nodup) {j : Nat} (here : names[i]? = some column)
    (there : names[j]? = some column) : i = j :=
  Option.some.inj (((idxOf?_eq_some_iff distinct).2 here).symm.trans ((idxOf?_eq_some_iff distinct).2 there))

theorem placeOf_eq_ok_iff (distinct : names.Nodup) :
    placeOf path names column = .ok i ↔ names[i]? = some column := by
  rw [← idxOf?_eq_some_iff distinct, placeOf]
  cases names.idxOf? column <;> simp

def counts (date : Nat) (column : String × Nat) : Bool :=
  !(column.1.isEmpty || column.2 == date || Bar.isStandard column.1)

theorem extraColumns_eq_ok_iff {date : Nat} {columns : List (String × Nat)} {extra : List (Nat × String)} :
    extraColumns path date columns = .ok extra ↔
      (∀ column ∈ columns, counts date column → Bar.isReserved column.1 = false) ∧
        (columns.filter (counts date)).map Prod.swap = extra := by
  induction columns generalizing extra with
  | nil =>
    rw [extraColumns, Except.ok.injEq]
    simp
  | cons column rest ih =>
    obtain ⟨name, i⟩ := column
    rw [List.forall_mem_cons]
    unfold extraColumns
    split
    · rename_i passed
      have uncounted : counts date (name, i) = false := congrArg not passed
      rw [ih, List.filter_cons_of_neg (Bool.eq_false_iff.1 uncounted), uncounted]
      simp
    · rename_i counted
      have counted : counts date (name, i) = true := congrArg not (Bool.eq_false_iff.2 counted)
      rw [List.filter_cons_of_pos counted, List.map_cons]
      split
      · rename_i reserved
        simp [counted, reserved]
      · rename_i free
        rw [map_eq_ok_iff]
        constructor
        · rintro ⟨others, behind, rfl⟩
          obtain ⟨free_rest, rfl⟩ := ih.1 behind
          exact ⟨⟨fun _ => Bool.eq_false_iff.2 free, free_rest⟩, rfl⟩
        · rintro ⟨⟨-, free_rest⟩, rfl⟩
          exact ⟨_, ih.2 ⟨free_rest, rfl⟩, rfl⟩

theorem counts_iff (distinct : names.Nodup) {date : Nat} (dated : names[date]? = some "date")
    (here : names[i]? = some column) : counts date (column, i) ↔ IsFurther column := by
  have same : i = date ↔ column = "date" := by
    constructor
    · rintro rfl
      exact Option.some.inj (here.symm.trans dated)
    · rintro rfl
      exact place_unique distinct here dated
  rw [counts, Bool.not_eq_true', Bool.or_eq_false_iff, Bool.or_eq_false_iff, IsFurther, and_assoc, beq_eq_false_iff_ne,
    ne_eq, same, ← Bool.not_eq_true (String.isEmpty column), String.isEmpty_iff]

end

structure Layout.Fits (layout : Layout) (names : List String) : Prop where
  date : names[layout.date]? = some "date"
  opening : names[layout.opening]? = some "open"
  high : names[layout.high]? = some "high"
  low : names[layout.low]? = some "low"
  close : names[layout.close]? = some "close"
  volume : names[layout.volume]? = some "volume"
  extra (place : Nat × String) : place ∈ layout.extra ↔ names[place.1]? = some place.2 ∧ IsFurther place.2
  distinct : (layout.extra.map Prod.snd).Nodup

section
variable {path : String} {header : List String}

private theorem fits_of_ofHeader (distinct : (columnNames header).Nodup) {layout : Layout}
    (read : Layout.ofHeader path header = .ok layout) :
    layout.Fits (columnNames header) ∧ IsHeader (columnNames header) := by
  unfold Layout.ofHeader at read
  obtain ⟨date, dated, read⟩ := bind_eq_ok_iff.1 read
  obtain ⟨opening, opened, read⟩ := bind_eq_ok_iff.1 read
  obtain ⟨high, highest, read⟩ := bind_eq_ok_iff.1 read
  obtain ⟨low, lowest, read⟩ := bind_eq_ok_iff.1 read
  obtain ⟨close, closed, read⟩ := bind_eq_ok_iff.1 read
  obtain ⟨volume, counted, read⟩ := bind_eq_ok_iff.1 read
  obtain ⟨extra, found, read⟩ := bind_eq_ok_iff.1 read
  obtain rfl := Except.ok.inj read
  change placeOf path (columnNames header) _ = _ at dated opened highest lowest closed counted
  rw [placeOf_eq_ok_iff distinct] at dated opened highest lowest closed counted
  obtain ⟨free, rfl⟩ := extraColumns_eq_ok_iff.1 found
  refine ⟨⟨dated, opened, highest, lowest, closed, counted, fun place => ?_, ?_⟩, fun name required => ?_,
    fun name member further => ?_⟩
  · rw [List.mem_map_swap, List.mem_filter, List.mem_zipIdx_iff_getElem?]
    exact and_congr_right fun here => counts_iff distinct dated here
  · rw [List.map_map]
    have columns : ((columnNames header).zipIdx.map Prod.fst).Nodup := by rwa [List.zipIdx_map_fst]
    exact (List.filter_sublist.map Prod.fst).nodup columns
  · simp only [requiredColumns, List.mem_cons, List.not_mem_nil, or_false] at required
    rcases required with rfl | rfl | rfl | rfl | rfl | rfl
    · exact List.mem_of_getElem? dated
    · exact List.mem_of_getElem? opened
    · exact List.mem_of_getElem? highest
    · exact List.mem_of_getElem? lowest
    · exact List.mem_of_getElem? closed
    · exact List.mem_of_getElem? counted
  · obtain ⟨i, here⟩ := List.mem_iff_getElem?.1 member
    exact free (name, i) (List.mem_zipIdx_iff_getElem?.2 here) ((counts_iff distinct dated here).2 further)

private theorem exists_ofHeader (distinct : (columnNames header).Nodup) (sound : IsHeader (columnNames header))
    (path : String) : ∃ layout, Layout.ofHeader path header = .ok layout := by
  have placed (column : String) (required : column ∈ requiredColumns) :
      ∃ i, placeOf path (columnNames header) column = .ok i ∧ (columnNames header)[i]? = some column := by
    obtain ⟨i, here⟩ := List.mem_iff_getElem?.1 (sound.required column required)
    exact ⟨i, (placeOf_eq_ok_iff distinct).2 here, here⟩
  obtain ⟨date, dated, here⟩ := placed "date" (by decide)
  obtain ⟨opening, opened, -⟩ := placed "open" (by decide)
  obtain ⟨high, highest, -⟩ := placed "high" (by decide)
  obtain ⟨low, lowest, -⟩ := placed "low" (by decide)
  obtain ⟨close, closed, -⟩ := placed "close" (by decide)
  obtain ⟨volume, counted, -⟩ := placed "volume" (by decide)
  have free : ∀ column ∈ (columnNames header).zipIdx, counts date column → Bar.isReserved column.1 = false := by
    intro column member counted
    have there := List.mem_zipIdx_iff_getElem?.1 member
    exact sound.free column.1 (List.mem_of_getElem? there) ((counts_iff distinct here there).1 counted)
  obtain ⟨extra, found⟩ : ∃ extra, extraColumns path date (columnNames header).zipIdx = .ok extra :=
    ⟨_, extraColumns_eq_ok_iff.2 ⟨free, rfl⟩⟩
  rw [columnNames] at dated opened highest lowest closed counted found
  refine ⟨⟨date, opening, high, low, close, volume, extra⟩, ?_⟩
  simp only [Layout.ofHeader, dated, opened, highest, lowest, closed, counted, found, bind, Except.bind]
  rfl

end

section
variable {header : List String} {line : Line} {column text : String} {i : Nat} {x : Float}

private theorem length_columnNames (header : List String) :
    (columnNames header).length = header.length := List.length_map _

theorem mem_cells_iff (distinct : (columnNames header).Nodup) (width : line.fields.length = header.length)
    (here : (columnNames header)[i]? = some column) : (column, text) ∈ cells header line.fields ↔ line.field i = text := by
  have inside : i < line.fields.length := by
    rw [width, ← length_columnNames]
    exact (List.getElem?_eq_some_iff.1 here).1
  have there : (cells header line.fields)[i]? = some (column, line.field i) := by
    rw [cells, List.getElem?_zip_eq_some, Line.field, List.getD_eq_getElem _ _ inside]
    exact ⟨here, List.getElem?_eq_getElem inside⟩
  constructor
  · intro member
    obtain ⟨j, at_j⟩ := List.mem_iff_getElem?.1 member
    have named := (List.getElem?_zip_eq_some.1 at_j).1
    obtain rfl := place_unique distinct here named
    exact congrArg Prod.snd (Option.some.inj (there.symm.trans at_j))
  · rintro rfl
    exact List.mem_of_getElem? there

theorem value_eq_ok_iff :
    line.value i column = .ok x ↔ Decimal.number? (Text.trim (line.field i)) = some x := by
  unfold Line.value
  dsimp only
  split
  · rename_i y found
    rw [found, Except.ok.injEq, Option.some.injEq]
  · rename_i none
    simp [none]

theorem value_eq_ok_iff_shows (distinct : (columnNames header).Nodup)
    (width : line.fields.length = header.length) (here : (columnNames header)[i]? = some column) :
    line.value i column = .ok x ↔ Shows (cells header line.fields) column x := by
  rw [value_eq_ok_iff, Shows]
  constructor
  · intro read
    exact ⟨_, (mem_cells_iff distinct width here).2 rfl, read⟩
  · rintro ⟨text, member, read⟩
    rwa [(mem_cells_iff distinct width here).1 member]

def Line.number? (line : Line) (i : Nat) : Option Float :=
  if (Text.trim (line.field i)).isEmpty then none else Decimal.number? (Text.trim (line.field i))

def Line.Legible (line : Line) (i : Nat) : Prop := (Text.trim (line.field i)).isEmpty ∨ (line.number? i).isSome

def Line.further? (line : Line) (places : List (Nat × String)) (name : String) : Option Float :=
  (places.find? (·.2 = name)).bind fun place => line.number? place.1

private theorem further?_cons (i : Nat) (column name : String) (rest : List (Nat × String)) :
    line.further? ((i, column) :: rest) name = if column = name then line.number? i else line.further? rest name := by
  unfold Line.further?
  by_cases here : column = name
  · rw [List.find?_cons_of_pos (by simpa using here), if_pos here, Option.bind_some]
  · rw [List.find?_cons_of_neg (by simpa using here), if_neg here]

private theorem further?_of_absent {places : List (Nat × String)} {name : String}
    (absent : name ∉ places.map Prod.snd) : line.further? places name = none := by
  have none : places.find? (·.2 = name) = none := by
    refine List.find?_eq_none.2 fun place member same => absent ?_
    exact List.mem_map.2 ⟨place, member, of_decide_eq_true same⟩
  rw [Line.further?, none, Option.bind_none]

theorem extra_eq_ok_iff {places : List (Nat × String)} (distinct : (places.map Prod.snd).Nodup)
    {found extra : Dictionary Float} : line.extra found places = .ok extra ↔
      (∀ place ∈ places, line.Legible place.1) ∧
        ∀ name, extra.get? name = (line.further? places name).or (found.get? name) := by
  induction places generalizing found with
  | nil =>
    have same : (∀ name, extra.get? name = found.get? name) ↔ found = extra :=
      ⟨fun same => (Dictionary.eq_of_get? same).symm, fun same name => by rw [same]⟩
    rw [Line.extra, Except.ok.injEq]
    simpa [Line.further?] using same.symm
  | cons place rest ih =>
    obtain ⟨i, column⟩ := place
    obtain ⟨fresh, distinct_rest⟩ := List.nodup_cons.1 distinct
    have absent : line.further? rest column = none := further?_of_absent fresh
    simp only [further?_cons, List.forall_mem_cons]
    unfold Line.extra
    split
    · rename_i blank
      have nothing : line.number? i = none := if_pos blank
      rw [ih distinct_rest, nothing, and_iff_right (show line.Legible i from .inl blank)]
      refine and_congr_right fun _ => forall_congr' fun name => ?_
      by_cases same : column = name
      · rw [if_pos same, ← same, absent]
      · rw [if_neg same]
    · rename_i filled
      have read : line.number? i = Decimal.number? (Text.trim (line.field i)) := if_neg filled
      have legible : line.Legible i ↔ (line.number? i).isSome := or_iff_right filled
      simp only [bind_eq_ok_iff, value_eq_ok_iff, legible, ← read]
      cases line.number? i with
      | none => simp
      | some x =>
        have entered (name : String) : (line.further? rest name).or ((found.insert column x).get? name) =
            (if column = name then some x else line.further? rest name).or (found.get? name) := by
          rw [Dictionary.get?_insert]
          by_cases same : column = name
          · rw [if_pos same, if_pos same.symm, ← same, absent]
            rfl
          · rw [if_neg same, if_neg (Ne.symm same)]
        simp only [Option.some.injEq, exists_eq_left', ih distinct_rest, entered, Option.isSome_some, true_and]

private theorem further?_of_mem {places : List (Nat × String)} (distinct : (places.map Prod.snd).Nodup)
    (member : (i, column) ∈ places) : line.further? places column = line.number? i := by
  induction places with
  | nil => cases member
  | cons place rest ih =>
    obtain ⟨j, other⟩ := place
    obtain ⟨fresh, distinct_rest⟩ := List.nodup_cons.1 distinct
    rw [further?_cons]
    rcases List.mem_cons.1 member with same | behind
    · cases same
      rw [if_pos rfl]
    · have differs : other ≠ column := fun same => fresh (same ▸ List.mem_map.2 ⟨_, behind, rfl⟩)
      rw [if_neg differs, ih distinct_rest behind]

theorem number?_eq_some_iff :
    line.number? i = some x ↔ Text.trim (line.field i) ≠ "" ∧ Decimal.number? (Text.trim (line.field i)) = some x := by
  unfold Line.number?
  split
  · rename_i blank
    simp [String.isEmpty_iff.1 blank]
  · rename_i filled
    rw [String.isEmpty_iff] at filled
    exact (and_iff_right filled).symm

private theorem exists_place (member : (column, text) ∈ cells header line.fields) :
    ∃ i : Nat, (columnNames header)[i]? = some column := by
  obtain ⟨i, here⟩ := List.mem_iff_getElem?.1 member
  exact ⟨i, (List.getElem?_zip_eq_some.1 here).1⟩

variable {layout : Layout} {symbol : String} {bar : Bar} {extra : Dictionary Float}

theorem extra_eq_ok_iff_of_fits (distinct : (columnNames header).Nodup)
    (fits : layout.Fits (columnNames header))
    (width : line.fields.length = header.length) : line.extra .empty layout.extra = .ok extra ↔
      (∀ name, extra.contains name ↔
        IsFurther name ∧ ∃ text, (name, text) ∈ cells header line.fields ∧ Text.trim text ≠ "") ∧
      ∀ name x, extra.get? name = some x → Shows (cells header line.fields) name x := by
  have cell {place : Nat × String} (member : place ∈ layout.extra) (text : String) :
      (place.2, text) ∈ cells header line.fields ↔ line.field place.1 = text :=
    mem_cells_iff distinct width ((fits.extra place).1 member).1
  have known {name : String} {x : Float} (there : line.further? layout.extra name = some x) :
      ∃ i, (i, name) ∈ layout.extra ∧ line.number? i = some x := by
    have listed : name ∈ layout.extra.map Prod.snd := by
      by_contra absent
      rw [further?_of_absent absent] at there
      cases there
    obtain ⟨⟨i, _⟩, member, rfl⟩ := List.mem_map.1 listed
    exact ⟨i, member, (further?_of_mem fits.distinct member).symm.trans there⟩
  rw [extra_eq_ok_iff fits.distinct]
  simp only [Dictionary.get?_empty, Option.or_none]
  constructor
  · rintro ⟨legible, same⟩
    refine ⟨fun name => ⟨fun there => ?_, fun ⟨further, text, member, filled⟩ => ?_⟩, fun name x there => ?_⟩
    · obtain ⟨x, there⟩ := Option.isSome_iff_exists.1 there
      obtain ⟨i, member, read⟩ := known ((same name).symm.trans there)
      exact ⟨((fits.extra _).1 member).2, _, (cell member _).2 rfl, (number?_eq_some_iff.1 read).1⟩
    · obtain ⟨i, here⟩ := exists_place member
      have listed : (i, name) ∈ layout.extra := (fits.extra (i, name)).2 ⟨here, further⟩
      obtain rfl := (cell listed text).1 member
      have read := (legible _ listed).resolve_left fun blank => filled (String.isEmpty_iff.1 blank)
      rw [Dictionary.contains, same, further?_of_mem fits.distinct listed]
      exact read
    · obtain ⟨i, member, read⟩ := known ((same name).symm.trans there)
      exact ⟨_, (cell member _).2 rfl, (number?_eq_some_iff.1 read).2⟩
  · rintro ⟨contains_iff, shows⟩
    have read {i : Nat} {name : String} (listed : (i, name) ∈ layout.extra) (filled : Text.trim (line.field i) ≠ "") :
        ∃ x, extra.get? name = some x ∧ line.number? i = some x := by
      have there := (contains_iff name).2 ⟨((fits.extra _).1 listed).2, _, (cell listed _).2 rfl, filled⟩
      obtain ⟨x, there⟩ := Option.isSome_iff_exists.1 there
      obtain ⟨text, member, read⟩ := shows name x there
      obtain rfl := (cell listed text).1 member
      exact ⟨x, there, number?_eq_some_iff.2 ⟨filled, read⟩⟩
    refine ⟨fun place listed => ?_, fun name => Option.ext fun x => ⟨fun there => ?_, fun there => ?_⟩⟩
    · by_cases filled : Text.trim (line.field place.1) = ""
      · exact .inl (String.isEmpty_iff.2 filled)
      · obtain ⟨x, -, read⟩ := read listed filled
        exact .inr (Option.isSome_iff_exists.2 ⟨x, read⟩)
    · obtain ⟨further, text, member, filled⟩ := (contains_iff name).1 (Option.isSome_iff_exists.2 ⟨x, there⟩)
      obtain ⟨i, here⟩ := exists_place member
      have listed : (i, name) ∈ layout.extra := (fits.extra (i, name)).2 ⟨here, further⟩
      obtain rfl := (cell listed text).1 member
      obtain ⟨y, same, number⟩ := read listed filled
      obtain rfl := Option.some.inj (there.symm.trans same)
      exact (further?_of_mem fits.distinct listed).trans number
    · obtain ⟨i, listed, number⟩ := known there
      obtain ⟨y, same, again⟩ := read listed (number?_eq_some_iff.1 number).1
      obtain rfl := Option.some.inj (number.symm.trans again)
      exact same

theorem bar_eq_ok_iff : line.bar symbol layout = .ok bar ↔
    bar.symbol = symbol ∧ Timestamp.ofText? (line.field layout.date) = some bar.date ∧
      line.value layout.opening "open" = .ok bar.opening ∧ line.value layout.high "high" = .ok bar.high ∧
      line.value layout.low "low" = .ok bar.low ∧ line.value layout.close "close" = .ok bar.close ∧
      line.value layout.volume "volume" = .ok bar.volume ∧ line.extra .empty layout.extra = .ok bar.extra := by
  unfold Line.bar
  dsimp only
  cases dated : Timestamp.ofText? (line.field layout.date) with
  | none =>
    simp only [reduceCtorEq, false_and, and_false]
  | some date =>
    simp only [bind_eq_ok_iff, Option.some.injEq]
    constructor
    · rintro ⟨opening, opened, high, highest, low, lowest, close, closed, volume, counted, extra, found, read⟩
      obtain rfl := Except.ok.inj read
      exact ⟨rfl, rfl, opened, highest, lowest, closed, counted, found⟩
    · rintro ⟨rfl, rfl, opened, highest, lowest, closed, counted, found⟩
      exact ⟨_, opened, _, highest, _, lowest, _, closed, _, counted, _, found, rfl⟩

theorem bar_eq_ok_iff_of_fits (distinct : (columnNames header).Nodup) (fits : layout.Fits (columnNames header))
    (width : line.fields.length = header.length) :
    line.bar symbol layout = .ok bar ↔ Says (cells header line.fields) symbol bar := by
  have shown {i : Nat} {column : String} {x : Float} (here : (columnNames header)[i]? = some column) :=
    value_eq_ok_iff_shows (x := x) distinct width here
  rw [bar_eq_ok_iff, shown fits.opening, shown fits.high, shown fits.low, shown fits.close, shown fits.volume,
    extra_eq_ok_iff_of_fits distinct fits width]
  constructor
  · rintro ⟨named, dated, opening, high, low, close, volume, further, numbers⟩
    have date := (mem_cells_iff distinct width fits.date).2 rfl
    exact ⟨named, ⟨_, date, dated⟩, opening, high, low, close, volume, further, numbers _ _⟩
  · intro told
    obtain ⟨text, member, dated⟩ := told.date
    obtain rfl := (mem_cells_iff distinct width fits.date).1 member
    exact ⟨told.symbol, dated, told.opening, told.high, told.low, told.close, told.volume, told.further,
      fun _ _ => told.numbers⟩

end

/-- A record has a field for each column, and the bar is what its cells say. -/
structure Reads (header : List String) (symbol : String) (fields : List String) (bar : Bar) : Prop where
  width : fields.length = header.length
  told : Says (cells header fields) symbol bar

def headerOf (table : List (List String)) : List String := table.headD []

section
variable {header : List String} {path symbol : String} {layout : Layout}

theorem barsOf_eq_ok_iff (distinct : (columnNames header).Nodup) (fits : layout.Fits (columnNames header))
    {index : Nat}
    {records : List Record} {bars : List Bar} : barsOf path symbol header.length layout index records = .ok bars ↔
      List.Forall₂ (Reads header symbol) (records.map Record.fields) bars := by
  induction records generalizing index bars with
  | nil =>
    rw [barsOf, Except.ok.injEq, List.map_nil, List.forall₂_nil_left_iff, eq_comm]
  | cons record rest ih =>
    rw [barsOf, List.map_cons, List.forall₂_cons_left_iff]
    split
    · rename_i uneven
      simp only [reduceCtorEq, false_iff, not_exists, not_and]
      exact fun _ _ reads => absurd reads.width uneven
    · rename_i even
      have width := not_not.1 even
      have first {bar : Bar} : (Line.mk path (index + 1) record.fields).bar symbol layout = .ok bar ↔
          Reads header symbol record.fields bar :=
        (bar_eq_ok_iff_of_fits distinct fits width).trans ⟨fun told => ⟨width, told⟩, Reads.told⟩
      rw [bind_eq_ok_iff]
      refine exists_congr fun bar => ?_
      rw [first, bind_eq_ok_iff, ← exists_and_left]
      refine exists_congr fun others => ?_
      have same : (pure (bar :: others) : Except DataFault (List Bar)) = .ok bars ↔ bars = bar :: others :=
        (Except.ok.injEq _ _).to_iff.trans eq_comm
      rw [ih, same]

/-- A file can be read if its header is sound and each record behind it is a bar. -/
theorem barsOfRecords_eq_ok_iff {records : List Record} {table : List (List String)}
    (fields : records.map Record.fields = table) (distinct : (columnNames (headerOf table)).Nodup) {bars : List Bar} :
    barsOfRecords path symbol records = .ok bars ↔ IsHeader (columnNames (headerOf table)) ∧
      ∃ read, List.Forall₂ (Reads (headerOf table) symbol) table.tail read ∧ Bar.byDate read = bars := by
  have steps : barsOfRecords path symbol records = do
      let layout ← Layout.ofHeader path (headerOf table)
      let bars ← barsOf path symbol (headerOf table).length layout 1 records.tail
      return Bar.byDate bars := by
    obtain rfl := fields
    cases records <;> rfl
  rw [steps, ← fields, ← List.map_tail, fields]
  simp only [bind_eq_ok_iff]
  constructor
  · rintro ⟨layout, laid, read, each, sorted⟩
    obtain ⟨fits, sound⟩ := fits_of_ofHeader distinct laid
    exact ⟨sound, read, (barsOf_eq_ok_iff distinct fits).1 each, Except.ok.inj sorted⟩
  · rintro ⟨sound, read, each, rfl⟩
    obtain ⟨layout, laid⟩ := exists_ofHeader distinct sound path
    have fits := (fits_of_ofHeader distinct laid).1
    exact ⟨layout, laid, read, (barsOf_eq_ok_iff distinct fits).2 each, rfl⟩

end

end Screener.Directory
