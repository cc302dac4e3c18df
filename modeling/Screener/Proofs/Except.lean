import Mathlib.Data.List.Forall2

/-! Steps that may fail, put together. What comes after a step is done only if the step succeeds, and a step for each of
several things succeeds if all of them do; then each thing has its partner in the result. -/
namespace Screener
variable {ε α β : Type}

theorem bind_eq_ok_iff {x : Except ε α} {next : α → Except ε β} {y : β} :
    x >>= next = .ok y ↔ ∃ a, x = .ok a ∧ next a = .ok y := by
  cases x with
  | error fault => exact ⟨fun failed => (nomatch failed), fun ⟨_, failed, _⟩ => (nomatch failed)⟩
  | ok a => exact ⟨fun same => ⟨a, rfl, same⟩, fun ⟨_, same, rest⟩ => Except.ok.inj same ▸ rest⟩

theorem ok_bind (a : α) (next : α → Except ε β) : (Except.ok a >>= next) = next a := rfl

theorem bind_eq_error_iff {x : Except ε α} {next : α → Except ε β} {fault : ε} :
    x >>= next = .error fault ↔ x = .error fault ∨ ∃ a, x = .ok a ∧ next a = .error fault := by
  cases x with
  | error other =>
    refine ⟨fun failed => .inl ?_, fun either => ?_⟩
    · cases failed
      rfl
    · rcases either with failed | ⟨_, done, _⟩
      · cases failed
        rfl
      · cases done
  | ok a =>
    refine ⟨fun failed => .inr ⟨a, rfl, failed⟩, fun either => ?_⟩
    rcases either with failed | ⟨_, done, failed⟩
    · cases failed
    · cases done
      exact failed

theorem map_eq_ok_iff {x : Except ε α} {f : α → β} {y : β} : x.map f = .ok y ↔ ∃ a, x = .ok a ∧ f a = y := by
  cases x <;> simp [Except.map]

theorem toOption_eq_some_iff {x : Except ε α} {y : α} : x.toOption = some y ↔ x = .ok y := by
  cases x <;> simp [Except.toOption]

theorem toOption_eq_of_ok_iff {x y : Except ε α} (same : ∀ {a}, x = .ok a ↔ y = .ok a) :
    x.toOption = y.toOption := by
  refine Option.ext fun a => ?_
  rw [toOption_eq_some_iff, toOption_eq_some_iff, same]

theorem mapM_eq_ok_iff {step : α → Except ε β} {xs : List α} {ys : List β} :
    xs.mapM step = .ok ys ↔ List.Forall₂ (fun x y => step x = .ok y) xs ys := by
  induction xs generalizing ys with
  | nil =>
    rw [List.mapM_nil, List.forall₂_nil_left_iff, eq_comm (b := [])]
    exact (Except.ok.injEq [] ys).to_iff
  | cons x rest ih =>
    rw [List.mapM_cons, bind_eq_ok_iff, List.forall₂_cons_left_iff]
    refine exists_congr fun y => ?_
    rw [bind_eq_ok_iff, ← exists_and_left]
    refine exists_congr fun others => ?_
    have same : (pure (y :: others) : Except ε (List β)) = .ok ys ↔ ys = y :: others :=
      (Except.ok.injEq _ _).to_iff.trans eq_comm
    rw [ih, same, and_left_comm]

theorem mapM_eq_ok {step : α → Except ε β} {f : α → β} {xs : List α} (each : ∀ x ∈ xs, step x = .ok (f x)) :
    xs.mapM step = .ok (xs.map f) :=
  mapM_eq_ok_iff.2 (List.forall₂_map_right_iff.2 (List.forall₂_same.2 each))

theorem exists_of_mapM_eq_error {step : α → Except ε β} {xs : List α} {fault : ε}
    (failed : xs.mapM step = .error fault) : ∃ x ∈ xs, step x = .error fault := by
  induction xs with
  | nil => cases failed
  | cons x rest ih =>
    rw [List.mapM_cons] at failed
    cases first : step x with
    | error other =>
      rw [first] at failed
      cases failed
      exact ⟨x, List.mem_cons_self, first⟩
    | ok y =>
      rw [first] at failed
      cases others : rest.mapM step with
      | error other =>
        simp only [others] at failed
        cases failed
        obtain ⟨z, inside, fails⟩ := ih others
        exact ⟨z, List.mem_cons_of_mem _ inside, fails⟩
      | ok ys =>
        simp only [others] at failed
        cases failed

theorem exists_right {related : α → β → Prop} {xs : List α} {ys : List β} (all : List.Forall₂ related xs ys) {x : α}
    (member : x ∈ xs) : ∃ y ∈ ys, related x y := by
  induction all with
  | nil => cases member
  | @cons a b as bs first _ ih =>
    rcases List.mem_cons.1 member with rfl | inside
    · exact ⟨b, List.mem_cons_self, first⟩
    · obtain ⟨y, there, related⟩ := ih inside
      exact ⟨y, List.mem_cons_of_mem _ there, related⟩

end Screener
