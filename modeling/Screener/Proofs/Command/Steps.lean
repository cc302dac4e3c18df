import Screener.Command.Run
import Screener.Proofs.Except

/-! What a step of a command does if it succeeds: the value that it gives and the effects that it leaves. Several steps
succeed if each does on what the one before it left. -/
namespace Screener.Command
open Settings (Lookup ScanSettings Ini)
open Screener.Filter (Violation)
variable {α β : Type} {before after : Effects}

/-- From the first effects the step succeeds with the value and leaves the others. -/
def Run.Gives (step : Run α) (before : Effects) (x : α) (after : Effects) : Prop := step.run.run before = (.ok x, after)

namespace Run

theorem run_bind (step : Run α) (next : α → Run β) (before : Effects) : (step >>= next).run.run before =
    match step.run.run before with
    | (.ok x, between) => (next x).run.run between
    | (.error failure, between) => (.error failure, between) := by
  simp only [bind, ExceptT.bind, ExceptT.run, ExceptT.mk, ExceptT.bindCont, StateT.run, StateT.bind]
  rcases step before with ⟨_ | _, _⟩ <;> rfl

theorem bind_gives_iff {step : Run α} {next : α → Run β} {y : β} : (step >>= next).Gives before y after ↔
    ∃ x between, step.Gives before x between ∧ (next x).Gives between y after := by
  unfold Gives
  rw [run_bind]
  rcases step.run.run before with ⟨failure | x, between⟩
  · exact ⟨fun failed => (nomatch congrArg Prod.fst failed), fun ⟨_, _, failed, _⟩ => (nomatch congrArg Prod.fst failed)⟩
  · refine ⟨fun rest => ⟨x, between, rfl, rest⟩, fun ⟨_, _, same, rest⟩ => ?_⟩
    cases same
    exact rest

theorem pure_gives_iff {x y : α} : (pure x : Run α).Gives before y after ↔ x = y ∧ before = after := by
  have done : (pure x : Run α).run.run before = (.ok x, before) := rfl
  rw [Gives, done, Prod.mk.injEq, Except.ok.injEq]

theorem throw_gives_iff {failure : Failure} {x : α} : (throw failure : Run α).Gives before x after ↔ False :=
  ⟨fun failed => (nomatch congrArg Prod.fst failed), False.elim⟩

theorem lift_gives_iff {result : Except Failure α} {x : α} :
    (liftM result : Run α).Gives before x after ↔ result = .ok x ∧ before = after := by
  cases result with
  | error failure => exact ⟨fun failed => (nomatch congrArg Prod.fst failed), fun failed => (nomatch failed.1)⟩
  | ok y =>
    rw [Except.ok.injEq]
    exact pure_gives_iff

theorem modify_gives_iff {change : Effects → Effects} {u : Unit} :
    (modify change : Run Unit).Gives before u after ↔ change before = after := by
  have done : (modify change : Run Unit).run.run before = (.ok (), change before) := rfl
  rw [Gives, done, Prod.mk.injEq]
  exact and_iff_right rfl

theorem get_gives_iff {x : Effects} : (get : Run Effects).Gives before x after ↔ x = before ∧ before = after := by
  have done : (get : Run Effects).run.run before = (.ok before, before) := rfl
  rw [Gives, done, Prod.mk.injEq, Except.ok.injEq, eq_comm]

end Run

theorem print_gives_iff {line : String} {u : Unit} : (print line).Gives before u after ↔
    { before with output := before.output ++ line ++ "\n" } = after := Run.modify_gives_iff

theorem note_gives_iff {line : String} {u : Unit} : (note line).Gives before u after ↔
    { before with errors := before.errors ++ line ++ "\n" } = after := Run.modify_gives_iff

theorem write_gives_iff {path : String} {node : Node} {u : Unit} : (write path node).Gives before u after ↔
    ∃ files, before.files.write? path node = some files ∧ { before with files } = after := by
  simp only [write, Run.bind_gives_iff, Run.get_gives_iff, and_assoc, exists_and_left, exists_eq_left, exists_eq_left']
  cases before.files.write? path node with
  | none => simp only [Run.throw_gives_iff, reduceCtorEq, false_and, exists_false]
  | some files => simp only [setFiles, Run.modify_gives_iff, Option.some.injEq, exists_eq_left']

theorem checked_gives_iff {result : Except (List Violation) α} {x : α} :
    (checked result).Gives before x after ↔ result = .ok x ∧ before = after := by
  cases result with
  | error violations => exact Run.throw_gives_iff.trans ⟨False.elim, fun failed => nomatch failed.1⟩
  | ok y =>
    rw [Except.ok.injEq]
    exact Run.pure_gives_iff

theorem readText_gives_iff {path content : String} :
    (readText path).Gives before content after ↔ before.files.text? path = some content ∧ before = after := by
  simp only [readText, Run.bind_gives_iff, Run.get_gives_iff, and_assoc, exists_and_left, exists_eq_left, exists_eq_left']
  cases before.files.text? path with
  | none => simp only [Run.throw_gives_iff, reduceCtorEq, false_and]
  | some found => simp only [Run.pure_gives_iff, Option.some.injEq]

theorem readConfig_gives_iff {path : String} {lookup : Lookup} : (readConfig path).Gives before lookup after ↔
    ((before.files.text? path).bind Ini.ofText?).map Ini.lookup = some lookup ∧ before = after := by
  simp only [readConfig, Run.bind_gives_iff, Run.get_gives_iff, and_assoc, exists_and_left, exists_eq_left, exists_eq_left']
  cases (before.files.text? path).bind Ini.ofText? with
  | none => simp only [Run.throw_gives_iff, Option.map_none, reduceCtorEq, false_and]
  | some ini => simp only [Run.pure_gives_iff, Option.map_some, Option.some.injEq]

theorem settingsOf_gives_iff {lookup : Lookup} {settings : ScanSettings} :
    (settingsOf lookup).Gives before settings after ↔ ScanSettings.ofLookup lookup = .ok settings ∧ before = after :=
  Run.lift_gives_iff

end Screener.Command
