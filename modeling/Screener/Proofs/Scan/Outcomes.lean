import Screener.Proofs.Except
import Screener.Proofs.Scan.Accounting

/-! What comes of one symbol, without the memo that its rows share. Every record of it carries the name of the
symbol, and the position of a match tells which match it is. -/
namespace Screener.Scan
open Screener.Filter (Expression)
open Evaluation (Frame matchedBy)

def found (frame : Frame) (e : Expression) (options : Options) : List Match :=
  ((frame.history.bars.zipIdx.drop (e.window - 1)).filter (holdsAt frame e options)).map (matchOf frame e options)

structure Report.Named (symbol : String) (part : Report) : Prop where
  results (m : Match) : m ∈ part.results → m.symbol = symbol
  diagnostics (d : Diagnostic) : d ∈ part.diagnostics → d.symbol = symbol
  skipped (s : Skipped) : s ∈ part.skipped → s.symbol = symbol

variable {e : Expression} {options : Options} {history : History}

theorem scanSymbol_eq : scanSymbol e options false history =
    if history.bars.isEmpty then .skipped ⟨history.symbol, 0, e.window⟩
    else
      match Frame.prepare history e with
      | .error problem => .failed ⟨history.symbol, problem⟩
      | .ok frame =>
        if history.bars.length < e.window then .skipped ⟨history.symbol, history.bars.length, e.window⟩
        else .matched (found frame e options) := by
  rw [scanSymbol, if_neg Bool.false_ne_true]
  split
  · rfl
  · cases prepared : Frame.prepare history e with
    | error problem => rfl
    | ok frame =>
      obtain rfl : frame.history = history := Frame.history_of_prepare prepared
      simp only [found, (matchRows_gives _ .empty frame.shown_empty).1]

theorem of_mem_matches? {m : Match} (member : m ∈ (scanSymbol e options false history).matches?) :
    ∃ frame row, Frame.prepare history e = .ok frame ∧ history.bars[m.index]? = some row ∧
      matchedBy (frame.read? frame.series m.index) e ∧ m = matchOf frame e options (row, m.index) := by
  rw [scanSymbol_eq] at member
  split at member
  · cases member
  · cases prepared : Frame.prepare history e with
    | error problem =>
      rw [prepared] at member
      cases member
    | ok frame =>
      obtain rfl : frame.history = history := Frame.history_of_prepare prepared
      simp only [prepared] at member
      split at member
      · cases member
      · obtain ⟨⟨row, position⟩, held, rfl⟩ := List.mem_map.1 member
        obtain ⟨inside, holds⟩ := List.mem_filter.1 held
        have here := List.mk_mem_zipIdx_iff_getElem?.1 (List.mem_of_mem_drop inside)
        exact ⟨frame, row, rfl, here, (Bool.and_eq_true_iff.1 holds).2, rfl⟩

theorem eq_of_index {a b : Match} (left : a ∈ (scanSymbol e options false history).matches?)
    (right : b ∈ (scanSymbol e options false history).matches?) (same : a.index = b.index) : a = b := by
  obtain ⟨frame, row, prepared, here, -, made⟩ := of_mem_matches? left
  obtain ⟨frame', row', prepared', here', -, made'⟩ := of_mem_matches? right
  rw [same, here'] at here
  rw [prepared'] at prepared
  obtain rfl : row' = row := Option.some.inj here
  obtain rfl : frame' = frame := Except.ok.inj prepared
  rw [made, made', same]

theorem named_of_accounted {part : Report} (accounted : Accounted e options history part) : part.Named history.symbol where
  results m member := by
    cases accounted with
    | empty | faulty | short => cases member
    | whole _ prepared _ reported =>
      obtain ⟨position, -, row, -, described, -⟩ := exists_right reported member
      rw [described.symbol, Frame.history_of_prepare prepared]
  diagnostics d member := by
    cases accounted with
    | empty | short | whole => cases member
    | faulty => rw [List.mem_singleton.1 member]
  skipped s member := by
    cases accounted with
    | faulty | whole => cases member
    | empty | short => rw [List.mem_singleton.1 member]

theorem named_scanSymbol (history : History) : (scanSymbol e options false history).part.Named history.symbol :=
  named_of_accounted (accounted_scanSymbol history)

end Screener.Scan
