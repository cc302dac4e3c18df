import Screener.Proofs.Decimal.Sum
import Screener.Proofs.Decimal.Whole
import Screener.Proofs.Resample.Stretches

/-! Resampling in steps. Bars that are put together stay as they are when they are put together once more, and the way by
a finer timeframe leads to the same bars of a coarse one. Only volumes may differ then, and only if their sums are
rounded. -/
namespace Screener
open Calendar (Timestamp)
open Decimal (Addend ExactSum addend addend_add addend_injective)

variable {target fine coarse : Timeframe}

private theorem joins_congr {a b : Timestamp} (joined : target.joins a b = true) (t : Timestamp) :
    target.joins t b = target.joins t a := by
  cases target with
  | intraday => cases joined
  | daily =>
    have same : a.date = b.date := eq_of_beq joined
    rw [Timeframe.joins, Timeframe.joins, same]
  | weekly =>
    have same : a.date.week = b.date.week := eq_of_beq joined
    rw [Timeframe.joins, Timeframe.joins, same]

private theorem joins_of_finer (derived : coarse.derivableFrom fine = true) {a b : Timestamp}
    (joined : fine.joins a b = true) : coarse.joins a b = true := by
  cases fine with
  | intraday => cases joined
  | daily =>
    have same : a.date = b.date := eq_of_beq joined
    cases coarse with
    | intraday => cases derived
    | daily => exact joined
    | weekly => rw [Timeframe.joins, same, beq_self_eq_true]
  | weekly =>
    cases coarse with
    | intraday | daily => cases derived
    | weekly => exact joined

private theorem gather_of_apart {bar : Bar} {rest : List Bar}
    (apart : (bar :: rest).IsChain fun a b => target.joins a.date b.date = false) :
    bar.gather target rest = bar :: rest := by
  induction rest generalizing bar with
  | nil => rfl
  | cons next rest ih =>
    obtain ⟨edge, others⟩ := List.isChain_cons_cons.1 apart
    rw [Bar.gather, if_neg (Bool.eq_false_iff.1 edge), ih others]

private theorem joins_head_gather {bar : Bar} {rest : List Bar} {made : Bar}
    (first : made ∈ (bar.gather target rest).head?)
    (t : Timestamp) : target.joins t made.date = target.joins t bar.date := by
  induction rest generalizing bar with
  | nil =>
    obtain rfl : bar = made := by simpa [Bar.gather] using first
    rfl
  | cons next rest ih =>
    rw [Bar.gather] at first
    split at first
    · rename_i joined
      rw [ih first, date_absorb, joins_congr joined]
    · obtain rfl : bar = made := by simpa using first
      rfl

private theorem isChain_gather (target : Timeframe) (bar : Bar) (rest : List Bar) :
    (bar.gather target rest).IsChain fun a b => target.joins a.date b.date = false := by
  induction rest generalizing bar with
  | nil => exact .singleton _
  | cons next rest ih =>
    rw [Bar.gather]
    split
    · exact ih _
    · rename_i apart
      refine (ih next).cons fun made first => ?_
      rw [joins_head_gather first]
      exact Bool.eq_false_iff.2 apart

private theorem resample_idempotent (target : Timeframe) (bars : List Bar) :
    resample target (resample target bars) = resample target bars := by
  cases bars with
  | nil => rfl
  | cons bar rest =>
    have apart := isChain_gather target bar rest
    change resample target (bar.gather target rest) = bar.gather target rest
    cases made : bar.gather target rest with
    | nil => rfl
    | cons first others =>
      rw [made] at apart
      exact gather_of_apart apart

section
variable {β : Type} {joined finer : β → β → Bool} {op : β → β → β}

/-- Puts neighbours together from the front, as long as they join. -/
def fuse (joined : β → β → Bool) (op : β → β → β) (x : β) : List β → List β
  | [] => [x]
  | y :: rest => if joined x y then fuse joined op (op x y) rest else x :: fuse joined op y rest

def fuseAll (joined : β → β → Bool) (op : β → β → β) : List β → List β
  | [] => []
  | x :: rest => fuse joined op x rest

/-- What joins in the finer way joins anyway, and what is put together joins what is behind it like its last part and what
is in front of it like its first part. -/
structure Nested (finer joined : β → β → Bool) (op : β → β → β) : Prop where
  joined_of_finer : ∀ {x y}, finer x y = true → joined x y = true
  behind : ∀ x y z, joined (op x y) z = joined y z
  ahead : ∀ {x y z}, finer y z = true → joined x (op y z) = joined x y
  assoc : ∀ x y z, op (op x y) z = op x (op y z)

private theorem fuse_finer (nested : Nested finer joined op) (before x : β) (rest : List β) :
    fuse joined op before (fuse finer op x rest) = fuse joined op before (x :: rest) := by
  induction rest generalizing before x with
  | nil => rfl
  | cons y rest ih =>
    rw [fuse]
    split
    · rename_i near
      rw [ih, fuse, fuse, nested.ahead near]
      split
      · rw [fuse, nested.behind, if_pos (nested.joined_of_finer near), nested.assoc]
      · rw [fuse, if_pos (nested.joined_of_finer near)]
    · rw [fuse, fuse, ih, ih]

/-- To put together first what joins in the finer way changes nothing. -/
theorem fuseAll_finer (nested : Nested finer joined op) (xs : List β) :
    fuseAll joined op (fuseAll finer op xs) = fuseAll joined op xs := by
  cases xs with
  | nil => rfl
  | cons x rest =>
    change fuseAll joined op (fuse finer op x rest) = fuse joined op x rest
    induction rest generalizing x with
    | nil => rfl
    | cons y rest ih =>
      rw [fuse]
      split
      · rename_i near
        rw [ih, fuse, if_pos (nested.joined_of_finer near)]
      · exact fuse_finer nested x y rest

end

/-- The bar but for its volume. -/
def Bar.unweighted (bar : Bar) : Bar := { bar with volume := 0.0 }

/-- No sum of volumes is rounded when the bars are put together one after another. -/
def Bar.AddsExactly (target : Timeframe) (bar : Bar) : List Bar → Prop
  | [] => True
  | next :: rest =>
    if target.joins bar.date next.date then
      ExactSum bar.volume next.volume ∧ Bar.AddsExactly target (bar.absorb next) rest
    else Bar.AddsExactly target next rest

def ExactVolumes (target : Timeframe) : List Bar → Prop
  | [] => True
  | bar :: rest => bar.AddsExactly target rest

def Bar.weigh (bar : Bar) : Bar × Addend := (bar.unweighted, addend bar.volume)

def Timeframe.joinsWeighed (target : Timeframe) (a b : Bar × Addend) : Bool := target.joins a.1.date b.1.date

def absorbWeighed (a b : Bar × Addend) : Bar × Addend := ((a.1.absorb b.1).unweighted, a.2.add b.2)

private theorem weigh_injective : Function.Injective Bar.weigh := by
  intro a b same
  obtain ⟨outline, volume⟩ := Prod.mk.inj same
  have volume := addend_injective volume
  cases a
  cases b
  simp_all [Bar.unweighted]

private theorem nested_weighed (derived : coarse.derivableFrom fine = true) :
    Nested fine.joinsWeighed coarse.joinsWeighed absorbWeighed where
  joined_of_finer near := joins_of_finer derived near
  behind _ _ _ := rfl
  ahead {x y z} near := joins_congr (joins_of_finer derived near) x.1.date
  assoc x y z := by
    simp only [absorbWeighed, Bar.unweighted, Bar.absorb, Decimal.greater_assoc, Decimal.lesser_assoc,
      Dictionary.merge_assoc, Addend.add_assoc]

private theorem map_weigh_gather {bar : Bar} {rest : List Bar} (exact_sums : bar.AddsExactly target rest) :
    (bar.gather target rest).map Bar.weigh = fuse target.joinsWeighed absorbWeighed bar.weigh (rest.map Bar.weigh) := by
  induction rest generalizing bar with
  | nil => rfl
  | cons next rest ih =>
    have joins : target.joinsWeighed bar.weigh next.weigh = target.joins bar.date next.date := rfl
    rw [Bar.AddsExactly] at exact_sums
    rw [List.map_cons, Bar.gather, fuse, joins]
    by_cases joined : target.joins bar.date next.date = true
    · rw [if_pos joined] at exact_sums
      have sum : (bar.absorb next).weigh = absorbWeighed bar.weigh next.weigh :=
        Prod.ext rfl (addend_add exact_sums.1)
      rw [if_pos joined, if_pos joined, ih exact_sums.2, sum]
    · rw [if_neg joined] at exact_sums
      rw [if_neg joined, if_neg joined, List.map_cons, ih exact_sums]

private theorem map_weigh_resample {bars : List Bar} (exact_sums : ExactVolumes target bars) :
    (resample target bars).map Bar.weigh = fuseAll target.joinsWeighed absorbWeighed (bars.map Bar.weigh) := by
  cases bars with
  | nil => rfl
  | cons bar rest => exact map_weigh_gather exact_sums

private theorem resample_finer (derived : coarse.derivableFrom fine = true) {bars : List Bar}
    (finely : ExactVolumes fine bars)
    (again : ExactVolumes coarse (resample fine bars)) (at_once : ExactVolumes coarse bars) :
    resample coarse (resample fine bars) = resample coarse bars := by
  refine List.map_injective_iff.2 weigh_injective ?_
  rw [map_weigh_resample again, map_weigh_resample finely, fuseAll_finer (nested_weighed derived),
    map_weigh_resample at_once]

private theorem exactSum_zero : ExactSum 0.0 0.0 := by
  intro a b left right
  have value := Decimal.rational?_zero
  have sum : (0.0 : Float) + 0.0 = 0.0 := by decide +kernel
  rw [value] at left right
  obtain rfl := Option.some.inj left
  obtain rfl := Option.some.inj right
  rw [sum, value, add_zero]

private theorem unweighted_absorb (bar next : Bar) :
    (bar.absorb next).unweighted = bar.unweighted.absorb next.unweighted := by
  have sum : (0.0 : Float) + 0.0 = 0.0 := by decide +kernel
  simp only [Bar.absorb, Bar.unweighted, sum]

private theorem addsExactly_unweighted (bar : Bar) (rest : List Bar) :
    bar.unweighted.AddsExactly target (rest.map Bar.unweighted) := by
  induction rest generalizing bar with
  | nil => trivial
  | cons next rest ih =>
    rw [List.map_cons, Bar.AddsExactly]
    split
    · rw [← unweighted_absorb]
      exact ⟨exactSum_zero, ih _⟩
    · exact ih next

private theorem exactVolumes_unweighted (bars : List Bar) : ExactVolumes target (bars.map Bar.unweighted) := by
  cases bars with
  | nil => trivial
  | cons bar rest => exact addsExactly_unweighted bar rest

private theorem map_unweighted_gather (bar : Bar) (rest : List Bar) :
    (bar.gather target rest).map Bar.unweighted = bar.unweighted.gather target (rest.map Bar.unweighted) := by
  induction rest generalizing bar with
  | nil => rfl
  | cons next rest ih =>
    have joins : target.joins bar.unweighted.date next.unweighted.date = target.joins bar.date next.date := rfl
    rw [List.map_cons, Bar.gather, Bar.gather, joins]
    split
    · rw [ih, unweighted_absorb]
    · rw [List.map_cons, ih]

private theorem map_unweighted_resample (bars : List Bar) :
    (resample target bars).map Bar.unweighted = resample target (bars.map Bar.unweighted) := by
  cases bars with
  | nil => rfl
  | cons bar rest => exact map_unweighted_gather bar rest

/-- Bars that are put together once stay so, and put together again for a coarser timeframe they give what the first bars
give at once: in number and in all but the volume always, and in the volume too if no sum of volumes is rounded. -/
theorem resample_resample (bars : List Bar) :
    (∀ target, resample target (resample target bars) = resample target bars) ∧
      ∀ fine coarse : Timeframe, coarse.derivableFrom fine = true →
        (resample coarse (resample fine bars)).map Bar.unweighted = (resample coarse bars).map Bar.unweighted ∧
          (ExactVolumes fine bars → ExactVolumes coarse (resample fine bars) → ExactVolumes coarse bars →
            resample coarse (resample fine bars) = resample coarse bars) := by
  refine ⟨fun target => resample_idempotent target bars, fun fine coarse derived => ⟨?_, resample_finer derived⟩⟩
  have light : ExactVolumes coarse (resample fine (bars.map Bar.unweighted)) := by
    rw [← map_unweighted_resample]
    exact exactVolumes_unweighted _
  rw [map_unweighted_resample, map_unweighted_resample, map_unweighted_resample]
  exact resample_finer derived (exactVolumes_unweighted bars) light (exactVolumes_unweighted bars)

/-- Sums of whole numbers that are whole numbers again are not rounded. -/
theorem exactSum_of_whole {x y : Float} {m n : Nat} (left : Decimal.whole? x = some m) (right : Decimal.whole? y = some n)
    (sum : Decimal.whole? (x + y) = some (m + n)) : ExactSum x y := by
  intro a b x_value y_value
  rw [Decimal.whole?_eq_some_iff.1 left] at x_value
  rw [Decimal.whole?_eq_some_iff.1 right] at y_value
  obtain rfl := Option.some.inj x_value
  obtain rfl := Option.some.inj y_value
  rw [Decimal.whole?_eq_some_iff.1 sum, Nat.cast_add]

theorem resample_resample_sample :
    Timeframe.weekly.derivableFrom .daily = true ∧ ExactVolumes .daily Sample.newYear ∧
      ExactVolumes .weekly (resample .daily Sample.newYear) ∧ ExactVolumes .weekly Sample.newYear ∧
      (resample .weekly Sample.newYear).length = 2 ∧
      resample .weekly (resample .daily Sample.newYear) = resample .weekly Sample.newYear := by
  have derived : Timeframe.weekly.derivableFrom .daily = true := rfl
  have morning : ExactSum 10 20 := exactSum_of_whole (m := 10) (n := 20) (by decide) (by decide) (by decide +kernel)
  have week : ExactSum (10 + 20) 30 :=
    exactSum_of_whole (m := 30) (n := 30) (by decide +kernel) (by decide) (by decide +kernel)
  have finely : ExactVolumes .daily Sample.newYear := ⟨morning, trivial⟩
  have again : ExactVolumes .weekly (resample .daily Sample.newYear) := ⟨week, trivial⟩
  have at_once : ExactVolumes .weekly Sample.newYear := ⟨morning, week, trivial⟩
  exact ⟨derived, finely, again, at_once, rfl,
    ((resample_resample Sample.newYear).2 .daily .weekly derived).2 finely again at_once⟩

end Screener
