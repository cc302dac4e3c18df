import Screener.Proofs.Evaluation.Calls

/-! What comes later. Nothing in the rows dated after a base row has any influence on the answers given at
that row. Rows put behind the last one leave the earlier answers alone as well, unless they go on with a bar
that was put together of the last rows; such a bar is seen at the date of the last row only. -/
namespace Screener
open Calendar (Timestamp)
open Screener.Filter (Operand Expression)

namespace History

/-- The same timeframes and, in each of them, the same rows up to a time; later rows share their dates only. -/
structure AgreeUntil (time : Timestamp) (a b : History) : Prop where
  base : a.base = b.base
  series (timeframe : Timeframe) : Option.Rel (SameUntil time) (a.bars? timeframe) (b.bars? timeframe)

theorem AgreeUntil.bars {time : Timestamp} {a b : History} (agree : AgreeUntil time a b) :
    SameUntil time a.bars b.bars := by
  have both := agree.series a.base
  rw [a.bars?_base, agree.base, b.bars?_base] at both
  cases both with
  | some same => exact same

theorem AgreeUntil.visible_barsFor {time : Timestamp} {a b : History} (agree : AgreeUntil time a b)
    (ordered : a.Ordered) (timeframe : Timeframe) :
    visible time (a.barsFor timeframe) = visible time (b.barsFor timeframe) := by
  have both := agree.series timeframe
  unfold barsFor
  generalize a.bars? timeframe = x, b.bars? timeframe = y at both
  cases both with
  | none => exact visible_resample_of_sameUntil agree.bars (ordered _ _ a.bars?_base)
  | some same => exact visible_of_sameUntil same

theorem AgreeUntil.ordered {time : Timestamp} {a b : History} (agree : AgreeUntil time a b)
    (ordered : a.Ordered) : b.Ordered := by
  intro timeframe bars given
  have both := agree.series timeframe
  rw [Option.mem_def.1 given] at both
  cases found : a.bars? timeframe with
  | none =>
    rw [found] at both
    cases both
  | some others =>
    rw [found] at both
    cases both with
    | some same => exact same.ascending (ordered timeframe others found)

/-- Further base rows behind the last one; what is attached stays. -/
def append (history : History) (further : List Bar) : History :=
  { history with
    series := history.series.set history.base (some (history.bars ++ further))
    has_base := by simp }

variable {history : History} {further : List Bar} {timeframe : Timeframe}

@[simp] theorem base_append : (history.append further).base = history.base := rfl

private theorem bars?_append : (history.append further).bars? timeframe =
    if timeframe = history.base then some (history.bars ++ further) else history.bars? timeframe :=
  history.series.get_set _ _ _

@[simp] theorem bars_append : (history.append further).bars = history.bars ++ further := by
  have found : some (history.append further).bars = some (history.bars ++ further) := by
    rw [← bars?_base, bars?_append, base_append, if_pos rfl]
  exact Option.some.inj found

private theorem isSome_bars?_append :
    ((history.append further).bars? timeframe).isSome = (history.bars? timeframe).isSome := by
  rw [bars?_append]
  split
  · rename_i own
    rw [own, bars?_base]
    rfl
  · rfl

end History

namespace Evaluation
namespace Frame

variable {a b : History} {e : Expression}

/-- Answers come from the bars that are seen, whatever calls were made before. -/
theorem answer_congr {call : Call} (within : call.Within e)
    (same : ∀ timeframe ∈ e.timeframes,
      (gather a e).seen timeframe call.position = (gather b e).seen timeframe call.position)
    (before after : List Call) : (gather a e).answer e before call = (gather b e).answer e after call := by
  rw [answer_eq, answer_eq]
  refine answerBy_congr within fun operand member => ?_
  rw [read?_eq_readEnd? bars_gather_base, read?_eq_readEnd? bars_gather_base]
  cases operand with
  | constant x => rfl
  | column name place | indicator which field name place =>
    have read : place.timeframe ∈ e.timeframes := mem_timeframes_of_source member rfl
    simp only [readEnd?, same _ read]

private theorem seen_of_agreeUntil {timeframe : Timeframe} (read : timeframe ∈ e.timeframes) (ordered : a.Ordered)
    {position : Nat} {row : Bar} (here : a.bars[position]? = some row) (agree : a.AgreeUntil row.date b) :
    (gather a e).seen timeframe position = (gather b e).seen timeframe position := by
  have first : a.bars.take (position + 1) = b.bars.take (position + 1) :=
    agree.bars.take_eq (ordered _ _ a.bars?_base) here (notAfter_refl _)
  have there : b.bars[position]? = some row := by
    rw [← List.getElem?_take_of_lt (Nat.lt_succ_self position), ← first,
      List.getElem?_take_of_lt (Nat.lt_succ_self position), here]
  by_cases own : timeframe = a.base
  · obtain ⟨inside, -⟩ := List.getElem?_eq_some_iff.1 here
    obtain ⟨inside', -⟩ := List.getElem?_eq_some_iff.1 there
    have left : (gather a e).seen a.base position = a.bars.take (position + 1) :=
      seen_base bars_gather_base inside
    have right : (gather b e).seen b.base position = b.bars.take (position + 1) :=
      seen_base bars_gather_base inside'
    rw [own, left, agree.base, right, first]
  · have own' : timeframe ≠ b.base := agree.base ▸ own
    have ascending : Ascending ((gather a e).bars timeframe) := by
      rw [bars_gather read]
      exact ascending_barsFor ordered timeframe
    have ascending' : Ascending ((gather b e).bars timeframe) := by
      rw [bars_gather read]
      exact ascending_barsFor (agree.ordered ordered) timeframe
    rw [seen_of_ascending own ascending here, seen_of_ascending own' ascending' there, bars_gather read,
      bars_gather read, agree.visible_barsFor ordered]

variable {history : History} {further : List Bar} {timeframe : Timeframe}

theorem coarse_of_derivableFrom {target base : Timeframe} (derivable : target.derivableFrom base)
    (other : target ≠ base) : target ≠ .intraday := by
  rintro rfl
  cases base with
  | intraday => exact other rfl
  | daily | weekly => exact absurd derivable (by decide)

private theorem seen_congr {f g : Frame} {position : Nat} (base : f.history.base = g.history.base)
    (other : timeframe ≠ f.history.base) (here : f.history.bars[position]? = g.history.bars[position]?)
    (same : f.bars timeframe = g.bars timeframe) : f.seen timeframe position = g.seen timeframe position := by
  unfold seen aligned?
  simp only [← base, other, if_false, ← here, ← same]

private theorem any_hasColumn_append {name : String}
    (present : ((gather history e).bars timeframe).any (·.hasColumn name)) :
    ((gather (history.append further) e).bars timeframe).any (·.hasColumn name) := by
  by_cases own : timeframe = history.base
  · have left : (gather history e).bars history.base = history.bars := bars_gather_base
    have right : (gather (history.append further) e).bars history.base = history.bars ++ further :=
      bars_gather_base.trans History.bars_append
    rw [own, left] at present
    rw [own, right, List.any_append, present, Bool.true_or]
  · by_cases read : timeframe ∈ e.timeframes
    · rw [bars_gather read, History.barsFor] at present ⊢
      rw [History.bars?_append, if_neg own]
      cases given : history.bars? timeframe with
      | some bars => simpa only [given, Option.getD_some] using present
      | none =>
        rw [given, Option.getD_none, any_hasColumn_resample] at present
        rw [Option.getD_none, any_hasColumn_resample, History.bars_append, List.any_append, present, Bool.true_or]
    · simpa [bars, gather, read, History.bars?_append, own] using present

private theorem prepare_append {frame : Frame} (prepared : prepare history e = .ok frame) :
    prepare (history.append further) e = .ok (gather (history.append further) e) := by
  obtain ⟨-, reachable, present⟩ := prepare_eq_ok_iff.1 prepared
  refine prepare_eq_ok_iff.2 ⟨rfl, fun timeframe read => ?_, fun source read => ?_⟩
  · rw [History.isSome_bars?_append]
    exact reachable timeframe read
  · exact any_hasColumn_append (present source read)

/-- Further rows begin a new bar in every timeframe whose bars are put together. -/
def Apart (frame : Frame) (last : Bar) (further : List Bar) : Prop :=
  ∀ timeframe, (frame.derived.get timeframe).isSome →
    ∀ first ∈ further.head?, timeframe.joins last.date first.date = false

private theorem seen_append (read : timeframe ∈ e.timeframes)
    (reachable : (history.bars? timeframe).isSome ∨ timeframe.derivableFrom history.base)
    (ascending : Ascending (history.bars ++ further)) {position : Nat} {row last : Bar}
    (here : history.bars[position]? = some row) (ends : history.bars.getLast? = some last)
    (settled : ¬last.date.notAfter row.date ∨ (gather history e).Apart last further) :
    (gather history e).seen timeframe position = (gather (history.append further) e).seen timeframe position := by
  obtain ⟨inside, -⟩ := List.getElem?_eq_some_iff.1 here
  have there : (history.append further).bars[position]? = some row := by
    rw [History.bars_append, List.getElem?_append_left inside, here]
  by_cases own : timeframe = history.base
  · obtain ⟨inside', -⟩ := List.getElem?_eq_some_iff.1 there
    have left : (gather history e).seen history.base position = history.bars.take (position + 1) :=
      seen_base bars_gather_base inside
    have right : (gather (history.append further) e).seen history.base position =
        (history.append further).bars.take (position + 1) := seen_base bars_gather_base inside'
    rw [own, left, right, History.bars_append, List.take_append_of_le_length inside]
  · cases given : history.bars? timeframe with
    | some bars =>
      refine seen_congr rfl own (here.trans there.symm) ?_
      rw [bars_gather read, bars_gather read, History.barsFor, History.barsFor, History.bars?_append, if_neg own,
        given]
      rfl
    | none =>
      have derivable : timeframe.derivableFrom history.base := by simpa [given] using reachable
      have coarse : timeframe ≠ .intraday := coarse_of_derivableFrom derivable own
      have put : history.barsFor timeframe = resample timeframe history.bars := by simp [History.barsFor, given]
      have put' : (history.append further).barsFor timeframe = resample timeframe (history.bars ++ further) := by
        simp [History.barsFor, History.bars?_append, own, given]
      have early : Ascending history.bars := (List.pairwise_append.1 ascending).1
      rw [seen_of_ascending own (by rw [bars_gather read, put]; exact ascending_resample early) here,
        seen_of_ascending own (by rw [bars_gather read, put']; exact ascending_resample ascending) there,
        bars_gather read, bars_gather read, put, put']
      rcases settled with strictly | apart
      · exact (visible_resample_append ascending ⟨last, List.mem_of_getLast? ends, strictly⟩).symm
      · have derived : ((gather history e).derived.get timeframe).isSome := by simp [gather, read, given]
        exact (visible_resample_apart ascending coarse (List.mem_of_getElem? here) ends
          (apart timeframe derived)).symm

end Frame

/-- Nothing looks ahead: where two histories agree on all rows dated at or before the date of a base row, every
call there is given the same answer, whatever was called before. -/
theorem answer_eq_of_agreeUntil {a b : History} {e : Expression} {f g : Frame}
    (prepared : Frame.prepare a e = .ok f) (prepared' : Frame.prepare b e = .ok g) (ordered : a.Ordered)
    {call : Call} (within : call.Within e) {row : Bar} (here : a.bars[call.position]? = some row)
    (agree : a.AgreeUntil row.date b) (before after : List Call) : f.answer e before call = g.answer e after call := by
  obtain ⟨rfl, -, -⟩ := Frame.prepare_eq_ok_iff.1 prepared
  obtain ⟨rfl, -, -⟩ := Frame.prepare_eq_ok_iff.1 prepared'
  exact Frame.answer_congr within (fun _ read => Frame.seen_of_agreeUntil read ordered here agree) before after

def Sample.other : History :=
  .ofBars "A" .daily [thursday, friday, { monday with close := 0.5 }, { tuesday with close := 7 }]

theorem Sample.agree_other : history.AgreeUntil friday.date other where
  base := by decide
  series
    | .intraday | .weekly => .none
    | .daily => .some (.cons ⟨rfl, fun _ => rfl⟩ (.cons ⟨rfl, fun _ => rfl⟩
        (.cons ⟨rfl, fun dated => absurd dated (by decide)⟩
          (.cons ⟨rfl, fun dated => absurd dated (by decide)⟩ .nil))))

theorem answer_eq_of_agreeUntil_sample :
    Frame.prepare Sample.other Sample.filter = .ok (.gather Sample.other Sample.filter) ∧
      Sample.history.AgreeUntil Sample.friday.date Sample.other ∧
      Sample.frame.answer Sample.filter [.filter 3] (.explanation 1) =
        (Frame.gather Sample.other Sample.filter).answer Sample.filter [] (.explanation 1) := by
  have prepared : Frame.prepare Sample.other Sample.filter = .ok (.gather Sample.other Sample.filter) := rfl
  have within : (Call.explanation 1).Within Sample.filter := trivial
  exact ⟨prepared, Sample.agree_other, answer_eq_of_agreeUntil Sample.prepare_history prepared Sample.ordered_history
    within rfl Sample.agree_other [.filter 3] []⟩

/-- Rows put behind the last one keep a filter preparable and change no answer at a row dated before the last
one, and none at all if they begin a new bar in every timeframe whose bars are put together. -/
theorem answer_append {history : History} {e : Expression} {frame : Frame}
    (prepared : Frame.prepare history e = .ok frame) {further : List Bar}
    (ascending : Ascending (history.bars ++ further)) :
    ∃ extended, Frame.prepare (history.append further) e = .ok extended ∧
      ∀ (call : Call) (row last : Bar), call.Within e → history.bars[call.position]? = some row →
        history.bars.getLast? = some last → ¬last.date.notAfter row.date ∨ frame.Apart last further →
          ∀ before after, frame.answer e before call = extended.answer e after call := by
  obtain ⟨rfl, reachable, -⟩ := Frame.prepare_eq_ok_iff.1 prepared
  refine ⟨_, Frame.prepare_append prepared, fun call row last within here ends settled => ?_⟩
  refine Frame.answer_congr within fun timeframe read => ?_
  exact Frame.seen_append read (reachable timeframe read) ascending here ends settled

def Sample.further : List Bar := [bar 15 (by decide) 5]

theorem Sample.apart_further : frame.Apart tuesday further := by
  intro timeframe _ first begins
  obtain rfl : bar 15 (by decide) 5 = first := by simpa [further] using begins
  cases timeframe <;> decide

theorem answer_append_sample :
    Ascending (Sample.history.bars ++ Sample.further) ∧ Sample.frame.Apart Sample.tuesday Sample.further ∧
      ∃ extended, Frame.prepare (Sample.history.append Sample.further) Sample.filter = .ok extended ∧
        Sample.frame.answer Sample.filter [.filter 0] (.explanation 3) =
          extended.answer Sample.filter [] (.explanation 3) := by
  have ascending : Ascending (Sample.history.bars ++ Sample.further) := by decide
  obtain ⟨extended, prepared, same⟩ := answer_append Sample.prepare_history ascending
  exact ⟨ascending, Sample.apart_further, extended, prepared,
    same (.explanation 3) Sample.tuesday Sample.tuesday trivial rfl rfl (.inr Sample.apart_further) _ _⟩

end Evaluation
end Screener
