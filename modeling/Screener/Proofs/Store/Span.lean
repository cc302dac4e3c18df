import Screener.Proofs.Calendar.Order
import Screener.Proofs.Store.Bars

/-! The span of a symbol's bars as a table tells it. A table reads the least and the greatest text of a date, while bars
are ordered by what their dates mean. Both tell the same span if no date lies outside of what the two texts say. That is
so where all dates are in the standard form and have plain years, but not for the other texts of a date. -/
namespace Screener
open Calendar (Timestamp)

/-- The span goes from the first of the dates to the last one and has their number. -/
structure Span.Covers (span : Span) (dates : List Timestamp) : Prop where
  first_mem : span.first ∈ dates
  last_mem : span.last ∈ dates
  within : ∀ t ∈ dates, span.first.notAfter t ∧ t.notAfter span.last
  count : span.count = dates.length

theorem Span.Covers.unique {span other : Span} {dates : List Timestamp} (covers : span.Covers dates)
    (covers' : other.Covers dates) : span = other := by
  have first := notAfter_antisymm (covers.within _ covers'.first_mem).1 (covers'.within _ covers.first_mem).1
  have last := notAfter_antisymm (covers'.within _ covers.last_mem).2 (covers.within _ covers'.last_mem).2
  have count : span.count = other.count := covers.count.trans covers'.count.symm
  cases span
  cases other
  simp only [Span.mk.injEq]
  exact ⟨first, last, count⟩

theorem Span.ofBars?_eq_some_iff {bars : List Bar} (ascending : Ascending bars) {span : Span} :
    Span.ofBars? bars = some span ↔ span.Covers (bars.map Bar.date) := by
  have covered (some_bar : bars ≠ []) :
      ∃ found, Span.ofBars? bars = some found ∧ found.Covers (bars.map Bar.date) := by
    refine ⟨⟨(bars.head some_bar).date, (bars.getLast some_bar).date, bars.length⟩, ?_, ?_, ?_, ?_, ?_⟩
    · rw [ofBars?, List.head?_eq_some_head some_bar, List.getLast?_eq_some_getLast some_bar]
    · exact List.mem_map_of_mem (List.head_mem some_bar)
    · exact List.mem_map_of_mem (List.getLast_mem some_bar)
    · intro t inside
      obtain ⟨bar, member, rfl⟩ := List.mem_map.1 inside
      exact ⟨ascending.rel_head_of_rel_head_head member (notAfter_refl _),
        ascending.rel_getLast_of_rel_getLast_getLast member (notAfter_refl _)⟩
    · exact (List.length_map Bar.date).symm
  constructor
  · intro told
    have some_bar : bars ≠ [] := by
      rintro rfl
      cases told
    obtain ⟨found, told', covers⟩ := covered some_bar
    rwa [Option.some.inj (told.symm.trans told')]
  · intro covers
    have some_bar : bars ≠ [] := by
      rintro rfl
      cases covers.first_mem
    obtain ⟨found, told, covers'⟩ := covered some_bar
    rwa [covers.unique covers']

/-- The date is in the standard form and has a plain year. -/
def Row.IsStandard (row : Row) : Prop := ∃ t : Timestamp, t.HasPlainYear ∧ row.date = t.text

namespace Store
variable {store : Store} {symbol : String} {bars : List Bar} {row : Row}

/-- The two texts are among the others, and none of those is less than the one or greater than the other. -/
structure AreExtremes (texts : List String) (least greatest : String) : Prop where
  least_mem : least ∈ texts
  greatest_mem : greatest ∈ texts
  within : ∀ text ∈ texts, ¬text < least ∧ ¬greatest < text

private theorem areExtremes_cons {text least greatest : String} {rest : List String}
    (extremes : AreExtremes rest least greatest) :
    AreExtremes (text :: rest) (if text < least then text else least) (if greatest < text then text else greatest) := by
  obtain ⟨least_mem, greatest_mem, within⟩ := extremes
  refine ⟨?_, ?_, fun other inside => ⟨fun less => ?_, fun more => ?_⟩⟩
  · split
    · exact List.mem_cons_self
    · exact List.mem_cons_of_mem _ least_mem
  · split
    · exact List.mem_cons_self
    · exact List.mem_cons_of_mem _ greatest_mem
  · rcases List.mem_cons.1 inside with rfl | inside
    · split at less
      · exact String.lt_irrefl _ less
      · contradiction
    · split at less
      · exact (within other inside).1 (String.lt_trans less ‹_›)
      · exact (within other inside).1 less
  · rcases List.mem_cons.1 inside with rfl | inside
    · split at more
      · exact String.lt_irrefl _ more
      · contradiction
    · split at more
      · exact (within other inside).2 (String.lt_trans ‹_› more)
      · exact (within other inside).2 more

private theorem exists_extremes {texts : List String} (some_text : texts ≠ []) :
    ∃ least greatest, extremes texts = some (least, greatest) ∧ AreExtremes texts least greatest := by
  induction texts with
  | nil => exact absurd rfl some_text
  | cons text rest ih =>
    cases rest with
    | nil =>
      refine ⟨text, text, rfl, List.mem_cons_self, List.mem_cons_self, fun other inside => ?_⟩
      obtain rfl := List.mem_singleton.1 inside
      exact ⟨String.lt_irrefl _, String.lt_irrefl _⟩
    | cons next others =>
      obtain ⟨least, greatest, found, among⟩ := ih (List.cons_ne_nil _ _)
      refine ⟨_, _, ?_, areExtremes_cons among⟩
      rw [extremes, found]

private theorem date_of_barOf {bar : Bar} (read : barOf row = .ok bar) :
    Timestamp.ofText? row.date = some bar.date := by
  unfold barOf at read
  split at read
  · cases read
  · rename_i date dated
    obtain ⟨extra, -, made⟩ := bind_eq_ok_iff.1 read
    cases made
    exact dated

theorem bars_eq_ok_iff : store.bars symbol = .ok bars ↔ store.ready ∧ ∃ found, found ≠ [] ∧
    List.Forall₂ (fun row bar => barOf row = .ok bar) (store.rowsOf symbol) found ∧ Bar.byDate found = bars := by
  unfold Store.bars access
  split
  · rename_i ready
    rw [bind_eq_ok_iff, and_iff_right ready]
    refine exists_congr fun found => ?_
    rw [mapM_eq_ok_iff, and_left_comm]
    refine and_congr_right fun _ => ?_
    cases found with
    | nil => exact ⟨fun failed => (nomatch failed), fun ⟨some_bar, _⟩ => absurd rfl some_bar⟩
    | cons bar rest => exact (Except.ok.injEq _ _).to_iff.trans (and_iff_right (List.cons_ne_nil _ _)).symm
  · rename_i unready
    exact ⟨fun failed => (nomatch failed), fun ⟨ready, _⟩ => absurd ready unready⟩

private theorem checkExtra_ne_noData (owner : String) (extra : Dictionary Float) (symbol : String) :
    checkExtra owner extra ≠ .error (.noData symbol) := by
  unfold checkExtra
  split <;> exact fun failed => nomatch failed

private theorem extraOf_ne_noData (owner : String) (text : Option String) (symbol : String) :
    extraOf owner text ≠ .error (.noData symbol) := by
  intro failed
  unfold extraOf at failed
  split at failed
  · cases failed
  · split at failed
    · split at failed
      · rcases bind_eq_error_iff.1 failed with failed | ⟨_, _, failed⟩
        · exact checkExtra_ne_noData _ _ _ failed
        · cases failed
      · cases failed
    · cases failed

private theorem barOf_ne_noData (row : Row) (symbol : String) : barOf row ≠ .error (.noData symbol) := by
  intro failed
  unfold barOf at failed
  split at failed
  · cases failed
  · rcases bind_eq_error_iff.1 failed with failed | ⟨_, _, failed⟩
    · exact extraOf_ne_noData _ _ _ failed
    · cases failed

theorem bars_eq_noData_iff :
    store.bars symbol = .error (.noData symbol) ↔ store.ready ∧ store.rowsOf symbol = [] := by
  unfold Store.bars access
  split
  · rename_i ready
    rw [and_iff_right ready]
    cases read : (store.rowsOf symbol).mapM barOf with
    | error fault =>
      obtain ⟨row, inside, fails⟩ := exists_of_mapM_eq_error read
      refine ⟨fun failed => ?_, fun none => ?_⟩
      · cases failed
        exact absurd fails (barOf_ne_noData row symbol)
      · rw [none] at inside
        cases inside
    | ok found =>
      have each := mapM_eq_ok_iff.1 read
      cases found with
      | nil => exact iff_of_true rfl (List.forall₂_nil_right_iff.1 each)
      | cons bar rest =>
        refine ⟨fun failed => (nomatch failed), fun none => ?_⟩
        rw [none] at each
        cases each
  · rename_i unready
    exact ⟨fun failed => (nomatch failed), fun ⟨ready, _⟩ => absurd ready unready⟩

private theorem span?_eq (ready : store.ready) : store.span? symbol = (do
    match extremes ((store.rowsOf symbol).map Row.date) with
    | none => return none
    | some (least, greatest) => return some ⟨← dateOf least, ← dateOf greatest, (store.rowsOf symbol).length⟩) :=
  if_pos ready

private theorem dateOf_eq {text : String} {t : Timestamp} (dated : Timestamp.ofText? text = some t) :
    dateOf text = .ok t := by
  rw [dateOf, dated]

private theorem exists_span (read : store.bars symbol = .ok bars) :
    ∃ span least greatest, store.span? symbol = .ok (some span) ∧ span.count = bars.length ∧
      AreExtremes ((store.rowsOf symbol).map Row.date) least greatest ∧
      Timestamp.ofText? least = some span.first ∧ Timestamp.ofText? greatest = some span.last := by
  obtain ⟨ready, found, some_bar, each, rfl⟩ := bars_eq_ok_iff.1 read
  have some_row : (store.rowsOf symbol).map Row.date ≠ [] := by
    intro none
    rw [List.map_eq_nil_iff.1 none] at each
    cases each
    exact some_bar rfl
  have dated {text : String} (inside : text ∈ (store.rowsOf symbol).map Row.date) :
      ∃ t, Timestamp.ofText? text = some t := by
    obtain ⟨row, listed, rfl⟩ := List.mem_map.1 inside
    obtain ⟨bar, -, made⟩ := exists_right each listed
    exact ⟨bar.date, date_of_barOf made⟩
  obtain ⟨least, greatest, told, among⟩ := exists_extremes some_row
  obtain ⟨first, first_read⟩ := dated among.least_mem
  obtain ⟨last, last_read⟩ := dated among.greatest_mem
  refine ⟨⟨first, last, (store.rowsOf symbol).length⟩, least, greatest, ?_, ?_, among, first_read, last_read⟩
  · rw [span?_eq ready, told]
    simp only [dateOf_eq first_read, dateOf_eq last_read]
    rfl
  · rw [Bar.byDate, List.length_mergeSort]
    exact each.length_eq

theorem mem_dates_iff {found : List Bar}
    (each : List.Forall₂ (fun row bar => barOf row = .ok bar) (store.rowsOf symbol) found) {t : Timestamp} :
    t ∈ (Bar.byDate found).map Bar.date ↔ ∃ row ∈ store.rowsOf symbol, Timestamp.ofText? row.date = some t := by
  rw [List.mem_map]
  constructor
  · rintro ⟨bar, inside, rfl⟩
    obtain ⟨row, listed, made⟩ := exists_right each.flip (mem_byDate.1 inside)
    exact ⟨row, listed, date_of_barOf made⟩
  · rintro ⟨row, listed, dated⟩
    obtain ⟨bar, inside, made⟩ := exists_right each listed
    exact ⟨bar, mem_byDate.2 inside, Option.some.inj ((date_of_barOf made).symm.trans dated)⟩

/-- With dates in the standard form and plain years nothing is dated outside of what the least and the greatest text say. -/
theorem within_of_standard {least greatest : String} {first last t : Timestamp}
    (standard : ∀ row ∈ store.rowsOf symbol, row.IsStandard)
    (among : AreExtremes ((store.rowsOf symbol).map Row.date) least greatest)
    (first_read : Timestamp.ofText? least = some first) (last_read : Timestamp.ofText? greatest = some last)
    (dated : ∃ row ∈ store.rowsOf symbol, Timestamp.ofText? row.date = some t) : first.notAfter t ∧ t.notAfter last := by
  have plain {text : String} (inside : text ∈ (store.rowsOf symbol).map Row.date) {u : Timestamp}
      (read : Timestamp.ofText? text = some u) : u.HasPlainYear ∧ text = u.text := by
    obtain ⟨row, listed, rfl⟩ := List.mem_map.1 inside
    obtain ⟨v, year, same⟩ := standard row listed
    rw [same, v.ofText?_text] at read
    obtain rfl := Option.some.inj read
    exact ⟨year, same⟩
  obtain ⟨row, listed, dated⟩ := dated
  have inside := List.mem_map_of_mem (f := Row.date) listed
  obtain ⟨year, same⟩ := plain inside dated
  obtain ⟨first_year, rfl⟩ := plain among.least_mem first_read
  obtain ⟨last_year, rfl⟩ := plain among.greatest_mem last_read
  have bounds := among.within _ inside
  rw [same, Timestamp.text_lt_iff year first_year, Timestamp.text_lt_iff last_year year] at bounds
  exact ⟨decide_eq_true (not_lt.1 bounds.1), decide_eq_true (not_lt.1 bounds.2)⟩

/-- Of a symbol whose bars it gives, a table tells a span that ends with what the least and the greatest text of a date
say. That is the span of the bars exactly if no bar is dated outside of it, as with dates in the standard form and plain
years. Of a symbol without bars it tells none. -/
theorem span?_of_bars (store : Store) (symbol : String) :
    (∀ bars, store.bars symbol = .ok bars → ∃ span least greatest,
      store.span? symbol = .ok (some span) ∧ span.count = bars.length ∧
      AreExtremes ((store.rowsOf symbol).map Row.date) least greatest ∧
      Timestamp.ofText? least = some span.first ∧ Timestamp.ofText? greatest = some span.last ∧
      (Span.ofBars? bars = some span ↔ ∀ bar ∈ bars, span.first.notAfter bar.date ∧ bar.date.notAfter span.last) ∧
      ((∀ row ∈ store.rowsOf symbol, row.IsStandard) → Span.ofBars? bars = some span)) ∧
    (store.bars symbol = .error (.noData symbol) → store.span? symbol = .ok none) := by
  constructor
  · intro bars read
    obtain ⟨span, least, greatest, told, count, among, first_read, last_read⟩ := exists_span read
    obtain ⟨-, found, -, each, rfl⟩ := bars_eq_ok_iff.1 read
    have covers_iff : Span.ofBars? (Bar.byDate found) = some span ↔
        ∀ bar ∈ Bar.byDate found, span.first.notAfter bar.date ∧ bar.date.notAfter span.last := by
      rw [Span.ofBars?_eq_some_iff (ascending_byDate found)]
      refine ⟨fun covers bar inside => covers.within _ (List.mem_map_of_mem inside), fun within => ⟨?_, ?_, ?_, ?_⟩⟩
      · obtain ⟨row, listed, rfl⟩ := List.mem_map.1 among.least_mem
        exact (mem_dates_iff each).2 ⟨row, listed, first_read⟩
      · obtain ⟨row, listed, rfl⟩ := List.mem_map.1 among.greatest_mem
        exact (mem_dates_iff each).2 ⟨row, listed, last_read⟩
      · exact List.forall_mem_map.2 within
      · rw [count, List.length_map]
    refine ⟨span, least, greatest, told, count, among, first_read, last_read, covers_iff, fun standard => ?_⟩
    exact covers_iff.2 fun bar inside => within_of_standard standard among first_read last_read
      ((mem_dates_iff each).1 (List.mem_map_of_mem inside))
  · intro none
    obtain ⟨ready, empty⟩ := bars_eq_noData_iff.1 none
    rw [span?_eq ready, empty]
    rfl

namespace Sample

def dated (t : Timestamp) : Bar := ⟨"A", t, 1, 2, 0.5, 1.5, 10, .empty⟩

def autumn (clock : Calendar.Clock) : Timestamp := ⟨⟨2022, 9, 21, by decide, by decide, by decide⟩, clock⟩

def farDay : Timestamp := ⟨⟨10000, 9, 21, by decide, by decide, by decide⟩, .midnight⟩

private theorem storable_dated (t : Timestamp) : (dated t).Storable where
  free _ none := nomatch none
  numbers := (by decide : ∀ x ∈ [(1 : Float), 2, 0.5, 1.5, 10], x.isNaN = false)

private theorem barOf_dated (t : Timestamp) : barOf (rowFor (dated t)) = .ok (kept (dated t)) :=
  (barOf_rowFor (storable_dated t) fun _ none => nomatch none).1 fun _ none => nomatch none

private theorem insert_dated {a b : Timestamp} (apart : a ≠ b) :
    ∃ store, blank.prepared.insert [dated a, dated b] = .ok store ∧ store.ready ∧
      store.rows = [rowFor (dated a), rowFor (dated b)] ∧
      store.bars "A" = .ok (Bar.byDate [kept (dated a), kept (dated b)]) := by
  have ready : blank.prepared.ready := rfl
  have ready' : (blank.prepared.putAll [dated a, dated b]).ready := by rw [ready_putAll, ready]
  have other : (dated a).isFor "A" b = false := Bool.eq_false_iff.2 fun same => apart (Bar.isFor_iff.1 same).2
  have rows : (blank.prepared.putAll [dated a, dated b]).rows = [rowFor (dated a), rowFor (dated b)] := by
    have stays : [dated a].filter (!·.isFor "A" b) = [dated a] := List.filter_cons_of_pos (by rw [other]; rfl)
    have latest : [dated a, dated b].foldl (fun held bar => held.filter (!·.isFor bar.symbol bar.date) ++ [bar]) [] =
        [dated a, dated b] := congrArg (· ++ [dated b]) stays
    rw [@rows_putAll blank.prepared _ [] rfl, latest]
    rfl
  refine ⟨_, (insert_eq_ok_iff ready).2 ⟨?_, rfl⟩, ready', rows,
    bars_eq_ok_iff.2 ⟨ready', _, List.cons_ne_nil _ _, ?_, rfl⟩⟩
  · intro bar inside
    rcases List.mem_cons.1 inside with rfl | inside
    · exact storable_dated a
    · exact List.mem_singleton.1 inside ▸ storable_dated b
  · rw [rowsOf, rows]
    exact .cons (barOf_dated a) (.cons (barOf_dated b) .nil)

end Sample

open Store.Sample (dated autumn farDay insert_dated)

theorem span?_of_bars_sample : ∃ store bars,
    blank.prepared.insert [dated (autumn .endOfDay), dated (autumn .midnight)] = .ok store ∧ store.bars "A" = .ok bars ∧
    store.span? "A" = .ok (Span.ofBars? bars) ∧ store.bars "B" = .error (.noData "B") ∧ store.span? "B" = .ok none := by
  obtain ⟨store, written, ready, rows, read⟩ := insert_dated (by decide : autumn .endOfDay ≠ autumn .midnight)
  obtain ⟨covered, -⟩ := span?_of_bars store "A"
  obtain ⟨span, _, _, told, -, -, -, -, -, standard⟩ := covered _ read
  have plain (clock : Calendar.Clock) : (autumn clock).HasPlainYear :=
    ⟨(by decide : (0 : Int) ≤ 2022), (by decide : (2022 : Int) ≤ 9999)⟩
  have same := standard fun row inside => by
    rw [rowsOf, rows] at inside
    rcases List.mem_cons.1 (List.mem_filter.1 inside).1 with rfl | inside
    · exact ⟨autumn .endOfDay, plain _, rfl⟩
    · exact List.mem_singleton.1 inside ▸ ⟨autumn .midnight, plain _, rfl⟩
  have unwritten : store.bars "B" = .error (.noData "B") := by
    refine bars_eq_noData_iff.2 ⟨ready, ?_⟩
    rw [rowsOf, rows]
    rfl
  exact ⟨store, _, written, read, same ▸ told, unwritten, (span?_of_bars store "B").2 unwritten⟩

/-- The span of a bar of the year 2022 and one of the year 10000 is told backwards. -/
theorem exists_span_backwards : ∃ store bars span,
    blank.prepared.insert [dated (autumn .midnight), dated farDay] = .ok store ∧ store.bars "A" = .ok bars ∧
    Span.ofBars? bars = some span ∧ span.first ≠ span.last ∧
    store.span? "A" = .ok (some ⟨span.last, span.first, span.count⟩) := by
  obtain ⟨store, written, ready, rows, read⟩ := insert_dated (by decide : autumn .midnight ≠ farDay)
  refine ⟨store, _, ⟨autumn .midnight, farDay, 2⟩, written, read, ?_, by decide, ?_⟩
  · refine (Span.ofBars?_eq_some_iff (ascending_byDate _)).2 ⟨?_, ?_, ?_, ?_⟩
    · exact List.mem_map.2 ⟨_, mem_byDate.2 List.mem_cons_self, rfl⟩
    · exact List.mem_map.2 ⟨_, mem_byDate.2 (List.mem_cons_of_mem _ List.mem_cons_self), rfl⟩
    · refine List.forall_mem_map.2 fun bar inside => ?_
      rcases List.mem_cons.1 (mem_byDate.1 inside) with rfl | inside
      · exact ⟨by decide, by decide⟩
      · exact List.mem_singleton.1 inside ▸ ⟨by decide, by decide⟩
    · rw [List.length_map, Bar.byDate, List.length_mergeSort]
      rfl
  · have texts : extremes [(autumn .midnight).text, farDay.text] = some (farDay.text, (autumn .midnight).text) := by
      decide
    have dates : (store.rowsOf "A").map Row.date = [(autumn .midnight).text, farDay.text] := by
      rw [rowsOf, rows]
      rfl
    have count : (store.rowsOf "A").length = 2 := by
      rw [rowsOf, rows]
      rfl
    rw [span?_eq ready, dates, texts, count]
    simp only [dateOf_eq (Timestamp.ofText?_text _)]
    rfl

end Store
end Screener
