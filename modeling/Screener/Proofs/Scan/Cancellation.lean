import Mathlib
import Screener.Scan.Interleaving
import Screener.Proofs.Scan.Accounting

/-! Cancelling a scan. Whenever the request to stop comes and in whatever order the symbols are scanned, a scan returns
the report of all symbols or none: what one of the workers saw is still there for the last look, which comes after. -/
namespace Screener.Scan
open Screener.Filter (Expression)
open Evaluation (Problem)

namespace Interleaving

def Worker.work : Worker → Nat
  | .waiting _ => 2
  | .scanning _ _ => 1
  | .finished _ => 0

def Stage.work : Stage → Nat
  | .scanning workers => (workers.map Worker.work).sum + 2
  | .merging _ => 1
  | .returned _ => 0

section
variable (e : Expression) (options : Options)

def Worker.outcome (stop : Bool) : Worker → Outcome
  | .waiting history => scanSymbol e options stop history
  | .scanning history seen => scanSymbol e options seen history
  | .finished outcome => outcome

def outcomes (stop : Bool) (events : List Event) (workers : List Worker) : List Outcome :=
  workers.mapIdx fun symbol worker => worker.outcome e options (askedBefore (.look symbol) stop events)

/-- What is returned if the scan goes on with these events and comes to its end. -/
def State.result (events : List Event) : State → Except Problem Report
  | ⟨stop, .scanning workers⟩ =>
    if askedBefore .check stop events then .error .cancelled
    else conclude options.order (outcomes e options stop events workers)
  | ⟨_, .merging outcomes⟩ => conclude options.order outcomes
  | ⟨_, .returned result⟩ => result

end

@[simp] theorem askedBefore_true (event : Event) (events : List Event) : askedBefore event true events = true :=
  Bool.true_or _

private theorem askedBefore_self (event : Event) (asked : Bool) (rest : List Event) :
    askedBefore event asked (event :: rest) = asked := by
  rw [askedBefore, List.takeWhile_cons, bne_self_eq_false, if_neg Bool.false_ne_true]
  exact Bool.or_false asked

private theorem askedBefore_cancel (event : Event) (other : event ≠ .cancel) (asked : Bool) (rest : List Event) :
    askedBefore event asked (.cancel :: rest) = true := by
  rw [askedBefore, List.takeWhile_cons, bne_iff_ne.2 other.symm, if_pos rfl, List.contains_cons, beq_self_eq_true,
    Bool.true_or, Bool.or_true]

private theorem askedBefore_cons (event first : Event) (other : first ≠ event) (harmless : first ≠ .cancel)
    (asked : Bool) (rest : List Event) : askedBefore event asked (first :: rest) = askedBefore event asked rest := by
  rw [askedBefore, List.takeWhile_cons, bne_iff_ne.2 other, if_pos rfl, List.contains_cons,
    beq_eq_false_iff_ne.2 harmless.symm, Bool.false_or]
  rfl

variable {e : Expression} {options : Options} {state next : State} {event : Event} {events : List Event}

theorem Step.stop_eq (step : Step e options state event next) :
    next.stop = (state.stop || event == .cancel) := by
  cases step with
  | cancel => exact (Bool.or_true _).symm
  | look | finish | stopped | passed | merge => exact (Bool.or_false _).symm

/-- The request that an event finds is that of the state in which it happens. -/
theorem Run.stop_eq (run : Run e options state events next) (first : event ∉ events) (after : List Event) :
    next.stop = askedBefore event state.stop (events ++ event :: after) := by
  induction run with
  | nil state => exact (askedBefore_self event state.stop after).symm
  | @cons state head middle _ _ step rest ih =>
    obtain ⟨other, later⟩ := not_or.1 (mt List.mem_cons.2 first)
    rw [ih later, step.stop_eq, List.cons_append]
    by_cases asks : head = .cancel
    · subst asks
      rw [askedBefore_cancel event other, beq_self_eq_true, Bool.or_true, askedBefore_true]
    · rw [askedBefore_cons event head (Ne.symm other) asks, beq_eq_false_iff_ne.2 asks, Bool.or_false]

private theorem outcomes_set {workers : List Worker} {symbol : Nat} {old new : Worker} {stop : Bool}
    (there : workers[symbol]? = some old)
    (kept : new.outcome e options (askedBefore (.look symbol) stop events) =
      old.outcome e options (askedBefore (.look symbol) stop (event :: events)))
    (harmless : event ≠ .cancel) (alone : ∀ other, other ≠ symbol → event ≠ .look other) :
    outcomes e options stop events (workers.set symbol new) = outcomes e options stop (event :: events) workers := by
  apply List.ext_getElem?
  intro i
  simp only [outcomes, List.getElem?_mapIdx]
  by_cases here : i = symbol
  · subst here
    obtain ⟨inside, -⟩ := List.getElem?_eq_some_iff.1 there
    rw [List.getElem?_set_self inside, there, Option.map_some, Option.map_some, kept]
  · rw [List.getElem?_set_ne (Ne.symm here), askedBefore_cons (.look i) event (alone i here) harmless]

private theorem outcomes_finished (stop : Bool) (found : List Outcome) :
    outcomes e options stop events (found.map .finished) = found := by
  apply List.ext_getElem?
  intro i
  rw [outcomes, List.getElem?_mapIdx, List.getElem?_map, Option.map_map]
  exact Option.map_id'

theorem Step.result_eq (step : Step e options state event next) (events : List Event) :
    next.result e options events = state.result e options (event :: events) := by
  cases step with
  | @cancel stop stage =>
    cases stage with
    | scanning workers => simp only [State.result, askedBefore_true, askedBefore_cancel .check nofun, if_true]
    | merging outcomes => rfl
    | returned result => rfl
  | @look stop workers symbol history waits =>
    have kept : outcomes e options stop events (workers.set symbol (.scanning history stop)) =
        outcomes e options stop (.look symbol :: events) workers := by
      refine outcomes_set waits ?_ nofun fun other different same => different (Event.look.inj same).symm
      rw [askedBefore_self]
      rfl
    simp only [State.result, kept, askedBefore_cons .check (.look symbol) nofun nofun]
  | @finish stop workers symbol history seen looked =>
    have kept : outcomes e options stop events (workers.set symbol (.finished (scanSymbol e options seen history))) =
        outcomes e options stop (.finish symbol :: events) workers :=
      outcomes_set looked rfl nofun fun _ _ => nofun
    simp only [State.result, kept, askedBefore_cons .check (.finish symbol) nofun nofun]
  | stopped all => simp only [State.result, askedBefore_self, if_true]
  | passed all =>
    simp only [State.result, askedBefore_self, all, outcomes_finished, Bool.false_eq_true, if_false]
  | merge => rfl

theorem Run.result_eq (run : Run e options state events next) :
    next.result e options [] = state.result e options events := by
  induction run with
  | nil => rfl
  | cons step rest ih => rw [ih, step.result_eq]

private theorem askedBefore_check_of_look {stop last : Bool} {workers : List Worker} {symbol : Nat} {history : History}
    {result : Except Problem Report} (run : Run e options ⟨stop, .scanning workers⟩ events ⟨last, .returned result⟩)
    (waits : workers[symbol]? = some (.waiting history)) (seen : askedBefore (.look symbol) stop events) :
    askedBefore .check stop events := by
  -- The last look waits for the worker, so the events up to it have the look for the symbol among them.
  induction events generalizing stop workers with
  | nil => cases run
  | cons event rest ih =>
    cases run with
    | cons step run =>
      cases step with
      | cancel => exact askedBefore_cancel .check nofun stop rest
      | @look _ _ other _ turn =>
        rw [askedBefore_cons .check (.look other) nofun nofun]
        by_cases same : other = symbol
        · subst same
          rw [askedBefore_self] at seen
          rw [seen]
          exact askedBefore_true .check rest
        · refine ih run ((List.getElem?_set_ne same).trans waits) ?_
          rwa [askedBefore_cons (.look symbol) (.look other) (fun equal => same (Event.look.inj equal)) nofun] at seen
      | @finish _ _ other _ _ looked =>
        rw [askedBefore_cons .check (.finish other) nofun nofun]
        have different : other ≠ symbol := by
          rintro rfl
          rw [waits] at looked
          cases looked
        refine ih run ((List.getElem?_set_ne different).trans waits) ?_
        rwa [askedBefore_cons (.look symbol) (.finish other) nofun nofun] at seen
      | stopped all | passed all =>
        rw [all, List.getElem?_map] at waits
        obtain ⟨outcome, -, finished⟩ := Option.map_eq_some_iff.1 waits
        cases finished

private theorem sum_work_set {workers : List Worker} {symbol : Nat} {old : Worker} (there : workers[symbol]? = some old)
    (new : Worker) : ((workers.set symbol new).map Worker.work).sum + old.work =
      (workers.map Worker.work).sum + new.work := by
  induction workers generalizing symbol with
  | nil => cases there
  | cons worker rest ih =>
    cases symbol with
    | zero =>
      obtain rfl := Option.some.inj there
      simp only [List.set_cons_zero, List.map_cons, List.sum_cons]
      omega
    | succ symbol =>
      have later := ih (List.getElem?_cons_succ ▸ there)
      simp only [List.set_cons_succ, List.map_cons, List.sum_cons]
      omega

theorem Step.work_lt (step : Step e options state event next) (own : event ≠ .cancel) :
    next.stage.work < state.stage.work := by
  cases step with
  | cancel => exact absurd rfl own
  | @look stop _ _ history waits =>
    have less := sum_work_set waits (.scanning history stop)
    simp only [Worker.work] at less
    simp only [Stage.work]
    omega
  | @finish _ _ _ history seen looked =>
    have less := sum_work_set looked (.finished (scanSymbol e options seen history))
    simp only [Worker.work] at less
    simp only [Stage.work]
    omega
  | stopped | passed | merge =>
    simp only [Stage.work]
    omega

theorem Run.work_le (run : Run e options state events next) :
    events.countP (· ≠ .cancel) + next.stage.work ≤ state.stage.work := by
  induction run with
  | nil => simp
  | @cons _ event _ _ _ step _ ih =>
    by_cases asks : event = .cancel
    · subst asks
      cases step
      simpa using ih
    · have less := step.work_lt asks
      rw [List.countP_cons, if_pos (decide_eq_true asks)]
      omega

private theorem finished_or_unfinished (workers : List Worker) :
    (∃ found : List Outcome, workers = found.map .finished) ∨
      (∃ (symbol : Nat) (history : History), workers[symbol]? = some (.waiting history)) ∨
      ∃ (symbol : Nat) (history : History) (seen : Bool), workers[symbol]? = some (.scanning history seen) := by
  induction workers with
  | nil => exact .inl ⟨[], rfl⟩
  | cons worker rest ih =>
    cases worker with
    | waiting history => exact .inr (.inl ⟨0, history, rfl⟩)
    | scanning history seen => exact .inr (.inr ⟨0, history, seen, rfl⟩)
    | finished outcome =>
      obtain ⟨found, rfl⟩ | ⟨symbol, waiting⟩ | ⟨symbol, scanning⟩ := ih
      · exact .inl ⟨outcome :: found, rfl⟩
      · exact .inr (.inl ⟨symbol + 1, waiting⟩)
      · exact .inr (.inr ⟨symbol + 1, scanning⟩)

private theorem exists_step (e : Expression) (options : Options) (state : State) :
    (∃ result, state.stage = .returned result) ∨
      ∃ event next, Step e options state event next ∧ event ≠ .cancel ∧ next.stop = state.stop := by
  obtain ⟨stop, stage⟩ := state
  cases stage with
  | returned result => exact .inl ⟨result, rfl⟩
  | merging outcomes => exact .inr ⟨_, _, .merge, nofun, rfl⟩
  | scanning workers =>
    right
    obtain ⟨found, all⟩ | ⟨symbol, history, waits⟩ | ⟨symbol, history, seen, looked⟩ := finished_or_unfinished workers
    · cases stop with
      | true => exact ⟨_, _, .stopped all, nofun, rfl⟩
      | false => exact ⟨_, _, .passed all, nofun, rfl⟩
    · exact ⟨_, _, .look waits, nofun, rfl⟩
    · exact ⟨_, _, .finish looked, nofun, rfl⟩

private theorem exists_return (e : Expression) (options : Options) (state : State) :
    ∃ events result, .cancel ∉ events ∧ Run e options state events ⟨state.stop, .returned result⟩ := by
  induction remaining : state.stage.work using Nat.strongRecOn generalizing state with
  | ind n ih =>
    subst remaining
    obtain ⟨result, returned⟩ | ⟨event, next, step, own, same⟩ := exists_step e options state
    · obtain ⟨stop, stage⟩ := state
      obtain rfl : stage = .returned result := returned
      exact ⟨[], result, List.not_mem_nil, .nil _⟩
    · obtain ⟨events, result, unasked, run⟩ := ih _ (step.work_lt own) next rfl
      rw [same] at run
      refine ⟨event :: events, result, ?_, .cons step run⟩
      exact fun asked => (List.mem_cons.1 asked).elim (fun equal => own equal.symm) unasked

private theorem scan_eq (watch : Watch) (histories : List History) :
    scan watch e options histories =
      if watch.atEnd then .error .cancelled
      else conclude options.order
        (histories.zipIdx.map fun (history, i) => scanSymbol e options (watch.atSymbol i) history) := by
  obtain ⟨atSymbol, atEnd⟩ := watch
  cases atEnd with
  | true => rfl
  | false => rfl

private theorem work_start (asked : Bool) (histories : List History) :
    (State.start asked histories).stage.work = 2 * histories.length + 2 := by
  have each : (histories.map Worker.waiting).map Worker.work = List.replicate histories.length 2 := by
    rw [List.map_map]
    exact List.map_const'
  rw [State.start, Stage.work, each, List.sum_replicate_nat, Nat.mul_comm]

private theorem result_start (asked : Bool) (histories : List History) (events : List Event) :
    (State.start asked histories).result e options events = scan (.along asked events) e options histories := by
  have waiting : outcomes e options asked events (histories.map .waiting) =
      histories.zipIdx.map fun (history, i) => scanSymbol e options (askedBefore (.look i) asked events) history := by
    apply List.ext_getElem?
    intro i
    simp only [outcomes, List.getElem?_mapIdx, List.getElem?_map, List.getElem?_zipIdx, Option.map_map]
    rw [Nat.zero_add]
    rfl
  rw [scan_eq, State.start, State.result, waiting]
  rfl

theorem Run.atEnd_of_atSymbol {asked last : Bool} {histories : List History} {result : Except Problem Report}
    (run : Run e options (.start asked histories) events ⟨last, .returned result⟩) {symbol : Nat}
    (inside : symbol < histories.length) (seen : (Watch.along asked events).atSymbol symbol) :
    (Watch.along asked events).atEnd := by
  have waits : (histories.map Worker.waiting)[symbol]? = some (.waiting histories[symbol]) := by
    rw [List.getElem?_map, List.getElem?_eq_getElem inside]
    rfl
  exact askedBefore_check_of_look run waits seen

/-- A scan that returns is the scan with the looks that its workers took. -/
theorem Run.returned_eq_scan {asked last : Bool} {histories : List History} {result : Except Problem Report}
    (run : Run e options (.start asked histories) events ⟨last, .returned result⟩) :
    result = scan (.along asked events) e options histories :=
  run.result_eq.trans (result_start asked histories events)

end Interleaving

variable {e : Expression} {options : Options} {histories : List History} {watch : Watch}

private theorem scan_of_unseen (unseen : ∀ symbol < histories.length, watch.atSymbol symbol = false)
    (passed : watch.atEnd = false) : scan watch e options histories = scan .quiet e options histories := by
  have same : (histories.zipIdx.map fun (history, i) => scanSymbol e options (watch.atSymbol i) history) =
      histories.zipIdx.map fun (history, _) => scanSymbol e options false history := by
    refine List.map_congr_left fun ⟨history, i⟩ member => ?_
    have inside := (List.getElem?_eq_some_iff.1 (List.mk_mem_zipIdx_iff_getElem?.1 member)).1
    simp only
    rw [unseen i inside]
  unfold scan
  rw [same, passed]
  rfl

/-- A scan that may be cancelled at any time returns after at most two events for each symbol and two more. What it
returns is the whole report of a scan that nobody cancels, or that it was cancelled; and the latter if the request was
there at any of its looks. -/
theorem run_whole_or_cancelled (e : Expression) (options : Options) {asked : Bool} {histories : List History}
    {events : List Interleaving.Event} {state : Interleaving.State}
    (run : Interleaving.Run e options (.start asked histories) events state) :
    events.countP (· ≠ .cancel) ≤ 2 * histories.length + 2 ∧
      (∃ more result, .cancel ∉ more ∧ Interleaving.Run e options state more ⟨state.stop, .returned result⟩) ∧
      ∃ report, scan .quiet e options histories = .ok report ∧
        ∀ result, state.stage = .returned result →
          result = scan (.along asked events) e options histories ∧
          (result = .error .cancelled ∨ result = .ok report) ∧
          ((Watch.along asked events).atEnd = false → result = .ok report) ∧
          ((Watch.along asked events).atEnd ∨ (∃ i < histories.length, (Watch.along asked events).atSymbol i) →
            result = .error .cancelled) := by
  obtain ⟨report, whole⟩ : ∃ report, scan .quiet e options histories = .ok report := ⟨_, scan_quiet _ _ _⟩
  have few := run.work_le
  refine ⟨?_, Interleaving.exists_return e options state, report, whole, fun result returned => ?_⟩
  · have all := Interleaving.work_start asked histories
    omega
  · obtain ⟨last, stage⟩ := state
    obtain rfl : stage = .returned result := returned
    have same := run.returned_eq_scan
    have stopped (ended : (Watch.along asked events).atEnd) : result = .error .cancelled := by
      rw [same, Interleaving.scan_eq, if_pos ended]
    have unstopped (passed : (Watch.along asked events).atEnd = false) : result = .ok report := by
      rw [same, ← whole]
      refine scan_of_unseen (fun i inside => Bool.eq_false_iff.2 fun seen => ?_) passed
      exact Bool.eq_false_iff.1 passed (run.atEnd_of_atSymbol inside seen)
    refine ⟨same, ?_, unstopped, ?_⟩
    · cases ended : (Watch.along asked events).atEnd with
      | true => exact .inl (stopped ended)
      | false => exact .inr (unstopped ended)
    · rintro (ended | ⟨i, inside, seen⟩)
      · exact stopped ended
      · exact stopped (run.atEnd_of_atSymbol inside seen)

section
open Interleaving (Event Run State Step)
open Evaluation.Sample (filter history)

theorem run_whole_or_cancelled_sample :
    let events : List Event := [.look 0, .finish 0, .cancel, .look 1, .finish 1, .check]
    let last : State := ⟨true, .returned (.error .cancelled)⟩
    Run filter {} (.start false [history, history]) events last ∧ events.countP (· ≠ .cancel) ≤ 2 * 2 + 2 ∧
      (Watch.along false events).atSymbol 0 = false ∧ (Watch.along false events).atEnd ∧
      ∃ report, scan .quiet filter {} [history, history] = .ok report ∧
        scan (.along false events) filter {} [history, history] = .error .cancelled := by
  intro events last
  have run : Run filter {} (.start false [history, history]) events last :=
    .cons (.look rfl) <| .cons (.finish rfl) <| .cons .cancel <| .cons (.look rfl) <| .cons (.finish rfl) <|
      .cons (@Step.stopped filter {} _ [_, _] rfl) <| .nil last
  obtain ⟨few, -, report, whole, returns⟩ := run_whole_or_cancelled filter {} run
  obtain ⟨same, -⟩ := returns (.error .cancelled) rfl
  exact ⟨run, few, rfl, rfl, report, whole, same.symm⟩

end

end Screener.Scan
