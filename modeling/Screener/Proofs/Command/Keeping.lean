import Screener.Proofs.Command.Steps

/-! What holds of the files after a step of a command, whether it succeeds or fails. Steps that write nothing keep
whatever holds, and steps one after the other keep what each of them keeps. -/
namespace Screener.Command
open Settings (Lookup ScanSettings)
open Screener.Filter (Violation)
variable {α β : Type} {before between after : Effects} {P Q R : Files → Prop}

namespace Run

/-- If the one holds of the files before the step, the other holds of them after it, also if the step fails. -/
def Leads (P Q : Files → Prop) (step : Run α) : Prop := ∀ before, P before.files → Q (step.run.run before).2.files

def Keeps (P : Files → Prop) (step : Run α) : Prop := step.Leads P P

def Fails (step : Run α) (before : Effects) (failure : Failure) (after : Effects) : Prop :=
  step.run.run before = (.error failure, after)

theorem keeps_of_gives {step : Run α}
    (gives : ∀ before, P before.files → ∃ x after, step.Gives before x after ∧ P after.files) : step.Keeps P := by
  intro before holds
  obtain ⟨x, after, given, kept⟩ := gives before holds
  have done : step.run.run before = (.ok x, after) := given
  rwa [done]

/-- What comes after a step is asked only for the values that the step gives. If the step fails, what holds then has to
be enough. -/
theorem leads_bind {step : Run α} {next : α → Run β} (enough : ∀ files, Q files → R files) (first : step.Leads P Q)
    (rest : ∀ before x after, P before.files → step.Gives before x after → (next x).Leads Q R) :
    (step >>= next).Leads P R := by
  intro before holds
  have reached := first before holds
  rw [run_bind]
  cases done : step.run.run before with
  | mk result between =>
    rw [done] at reached
    cases result with
    | error failure => exact enough _ reached
    | ok x => exact rest before x between holds done between reached

theorem keeps_bind {step : Run α} {next : α → Run β} (first : step.Keeps P)
    (rest : ∀ before x after, P before.files → step.Gives before x after → (next x).Keeps P) : (step >>= next).Keeps P :=
  leads_bind (fun _ holds => holds) first rest

theorem keeps_pure (x : α) : (pure x : Run α).Keeps P := fun _ holds => holds

theorem keeps_throw (failure : Failure) : (throw failure : Run α).Keeps P := fun _ holds => holds

theorem keeps_get : (get : Run Effects).Keeps P := fun _ holds => holds

theorem keeps_lift (result : Except Failure α) : (liftM result : Run α).Keeps P := by
  cases result with
  | error failure => exact keeps_throw failure
  | ok x => exact keeps_pure x

theorem keeps_print (line : String) : (print line).Keeps P := fun _ holds => holds

theorem keeps_note (line : String) : (note line).Keeps P := fun _ holds => holds

theorem keeps_forM {xs : List α} {step : α → Run PUnit} (each : ∀ x ∈ xs, (step x).Keeps P) :
    (xs.forM step).Keeps P := by
  induction xs with
  | nil => exact keeps_pure _
  | cons x rest ih =>
    obtain ⟨first, others⟩ := List.forall_mem_cons.1 each
    have first_then_others : (x :: rest).forM step = step x >>= fun _ => rest.forM step := rfl
    rw [first_then_others]
    exact keeps_bind first fun _ _ _ _ _ => ih others

theorem bind_fails_iff {step : Run α} {next : α → Run β} {x : α} {failure : Failure} (given : step.Gives before x between) :
    (step >>= next).Fails before failure after ↔ (next x).Fails between failure after := by
  have done : step.run.run before = (.ok x, between) := given
  rw [Fails, run_bind, done]
  rfl

theorem lift_bind_fails {result : Except Failure α} {next : α → Run β} {failure : Failure} (failed : result = .error failure)
    (before : Effects) : ((liftM result : Run α) >>= next).Fails before failure before := by
  subst failed
  rfl

theorem throw_fails (failure : Failure) : (throw failure : Run α).Fails before failure before := rfl

end Run

theorem keeps_checked (result : Except (List Violation) α) : (checked result).Keeps P := by
  cases result with
  | error violations => exact Run.keeps_throw _
  | ok x => exact Run.keeps_pure x

theorem keeps_readText (path : String) : (readText path).Keeps P := by
  refine Run.keeps_bind Run.keeps_get fun _ effects _ _ _ => ?_
  cases effects.files.text? path with
  | none => exact Run.keeps_throw _
  | some content => exact Run.keeps_pure content

theorem keeps_readFilter (path : String) : (readFilter path).Keeps P :=
  Run.keeps_bind (keeps_readText path) fun _ _ _ _ _ => keeps_checked _

theorem keeps_readConfig (path : String) : (readConfig path).Keeps P := by
  refine Run.keeps_bind Run.keeps_get fun _ effects _ _ _ => ?_
  cases (effects.files.text? path).bind Settings.Ini.ofText? with
  | none => exact Run.keeps_throw _
  | some ini => exact Run.keeps_pure ini.lookup

theorem leads_write {path : String} {node : Node} (unwritten : ∀ files, P files → Q files)
    (written : ∀ files left, P files → files.write? path node = some left → Q left) : (write path node).Leads P Q := by
  refine Run.leads_bind unwritten Run.keeps_get fun before effects _ holds given => ?_
  obtain ⟨rfl, -⟩ := Run.get_gives_iff.1 given
  cases wrote : effects.files.write? path node with
  | none => exact fun reached => unwritten reached.files
  | some left => exact fun _ _ => written effects.files left holds wrote

theorem readFilter_gives_iff {path : String} {filter : Filter.Expression} : (readFilter path).Gives before filter after ↔
    ∃ content, before.files.text? path = some content ∧ Filter.Expression.ofText content = .ok filter ∧ before = after := by
  simp only [readFilter, Run.bind_gives_iff, readText_gives_iff, checked_gives_iff, and_assoc, exists_and_left,
    exists_eq_left']

variable {arguments : Arguments} {files : Files}

theorem run_of_gives (given : (steps arguments).Gives ⟨"", "", files⟩ () after) : run arguments files = (0, after) := by
  have done : (steps arguments).run.run ⟨"", "", files⟩ = (.ok (), after) := given
  rw [run, done]

theorem run_of_fails {failure : Failure} (failed : (steps arguments).Fails ⟨"", "", files⟩ failure after) :
    run arguments files =
      (failure.exitCode, { after with errors := after.errors ++ "error: " ++ failure.message ++ "\n" }) := by
  have done : (steps arguments).run.run ⟨"", "", files⟩ = (.error failure, after) := failed
  rw [run, done]

private theorem exitCode_ne_zero (failure : Failure) : failure.exitCode ≠ 0 := by
  cases failure with
  | scan problem => cases problem <;> exact Nat.succ_ne_zero _
  | _ => exact Nat.succ_ne_zero _

theorem gives_of_run (done : run arguments files = (0, after)) : (steps arguments).Gives ⟨"", "", files⟩ () after := by
  unfold run at done
  split at done
  · rename_i effects given
    rw [Run.Gives, given, (Prod.mk.inj done).2]
  · rename_i failure effects failed
    exact absurd (Prod.mk.inj done).1 (exitCode_ne_zero failure)

theorem fails_of_run (done : (run arguments files).1 = 6) :
    ∃ name after, (steps arguments).Fails ⟨"", "", files⟩ (.noFilter name) after := by
  unfold run at done
  split at done
  · cases done
  · rename_i failure after failed
    cases failure with
    | noFilter name => exact ⟨name, after, failed⟩
    | scan problem => cases problem <;> cases done
    | _ => cases done

theorem files_run (arguments : Arguments) (files : Files) :
    (run arguments files).2.files = ((steps arguments).run.run ⟨"", "", files⟩).2.files := by
  rw [run]
  split <;> rename_i done <;> rw [done]

end Screener.Command
