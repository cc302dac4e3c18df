import Screener.Proofs.Filter.Grammar
import Screener.Proofs.Filter.Violations

/-! Conditions are checked each for itself. What is wrong with a document is what is wrong around its conditions, and
then, one condition after the other, what is wrong with each of them. -/
namespace Screener.Filter
open Json (Value Fields)
open Grammar

def Expression.violations (value : Value) : List Violation :=
  match Expression.ofJson value with
  | .ok _ => []
  | .error vs => vs

/-- The violation is in the condition with the number, or in something below it. -/
def Violation.ofItem (i : Nat) (v : Violation) : Bool := ["conditions", i.repr].isPrefixOf v.path

/-- The violation as it would be in the condition with another number. -/
def Violation.toItem (i : Nat) (v : Violation) : Violation :=
  match v.path with
  | list :: _ :: rest => ⟨list :: i.repr :: rest, v.reason⟩
  | _ => v

/-- A document with one condition, and nothing wrong around it. -/
structure Alone (item : Value) (fields : Fields) : Prop where
  only : Only ["logic", "conditions"] fields
  logic : ∃ logic, Given IsLogic fields "logic" logic
  listed : fields.lookup "conditions" = some (.array [item])

def withConditions (fields : Fields) (values : List Value) : Fields :=
  fields.map fun field => (field.1, if field.1 = "conditions" then .array values else field.2)

private theorem violations_eq_found (value : Value) : Expression.violations value = (Document.filter value).found := by
  unfold Expression.violations
  split
  · rename_i e accepted
    exact (Checked.toExcept_eq_ok_iff.1 accepted).2.symm
  · rename_i vs rejected
    exact (Document.found_of_rejected rejected).1.symm

namespace Document

def itemFaults (i : Nat) (item : Value) : List Violation :=
  ((condition item).found.map (Violation.under i.repr)).map (Violation.under "conditions")

def faultsAt (values : List Value) (i : Nat) : List Violation := (values[i]?).elim [] (itemFaults i)

def countFaults (count : Nat) : List Violation :=
  if 1 ≤ count ∧ count ≤ mostConditions then [] else [⟨["conditions"], .conditionCount count mostConditions⟩]

/-- What is wrong around the conditions. Nothing but their number matters for it. -/
def outerFaults (fields : Fields) (count : Nat) : List Violation :=
  foreign ["logic", "conditions"] fields ++ (required fields "logic" logic).found ++ countFaults count

private theorem found_items {α : Type} (check : Value → Checked α) (start : Nat) (values : List Value) :
    (Checked.items check start values).found = (List.range values.length).flatMap fun i =>
      (values[i]?).elim [] fun item => (check item).found.map (Violation.under (start + i).repr) := by
  induction values generalizing start with
  | nil => rfl
  | cons item rest ih =>
    have further (i : Nat) : start + 1 + i = start + (i + 1) := by omega
    rw [Checked.items, Checked.both, List.length_cons, List.range_succ_eq_map, List.flatMap_cons, List.flatMap_map, ih]
    simp only [further]
    rfl

private theorem found_conditions (values : List Value) :
    ((conditions (.array values)).under "conditions").found =
      countFaults values.length ++ (List.range values.length).flatMap (faultsAt values) := by
  have each : (Checked.items condition 0 values).found.map (Violation.under "conditions") =
      (List.range values.length).flatMap (faultsAt values) := by
    rw [found_items, List.map_flatMap]
    refine List.flatMap_congr fun i _ => ?_
    rw [Nat.zero_add, faultsAt]
    cases values[i]? <;> rfl
  rw [← each, countFaults]
  change (Checked.found (if _ then _ else _)).map _ = _
  split <;> rfl

private theorem found_filter {fields : Fields} {values : List Value}
    (listed : fields.lookup "conditions" = some (.array values)) :
    (filter (.object fields)).found =
      outerFaults fields values.length ++ (List.range values.length).flatMap (faultsAt values) := by
  have conditions_eq : required fields "conditions" conditions = (conditions (.array values)).under "conditions" := by
    rw [required, listed]
  have nothing (pair : Logic × List Condition)
      (given : (Checked.both Prod.mk (required fields "logic" logic) (required fields "conditions" conditions)).value =
        some pair) : (expression pair.1 pair.2).found = [] := by
    obtain ⟨e, made⟩ := expression_of_both given
    rw [made]
    rfl
  change foreign _ fields ++ (Checked.andThen _ fun pair : Logic × List Condition => expression pair.1 pair.2).found = _
  rw [Checked.found_andThen nothing, Checked.both, conditions_eq, found_conditions, outerFaults]
  simp only [List.append_assoc]

private theorem path_of_outer {fields : Fields} {count : Nat} {v : Violation} (found : v ∈ outerFaults fields count) :
    ∃ key, v.path = [key] := by
  rcases List.mem_append.1 found with found | found
  · rcases List.mem_append.1 found with found | found
    · obtain ⟨field, -, rfl⟩ := List.mem_map.1 found
      exact ⟨field.1, rfl⟩
    · unfold required at found
      split at found
      · obtain ⟨w, there, rfl⟩ := List.mem_map.1 found
        exact ⟨"logic", congrArg ("logic" :: ·) ((plain_word _ _ _).path_eq there)⟩
      · obtain rfl := List.mem_singleton.1 found
        exact ⟨"logic", rfl⟩
  · unfold countFaults at found
    split at found
    · cases found
    · obtain rfl := List.mem_singleton.1 found
      exact ⟨"conditions", rfl⟩

private theorem path_of_item {i : Nat} {item : Value} {v : Violation} (found : v ∈ itemFaults i item) :
    ∃ rest, v.path = "conditions" :: i.repr :: rest := by
  obtain ⟨w, there, rfl⟩ := List.mem_map.1 found
  obtain ⟨u, -, rfl⟩ := List.mem_map.1 there
  exact ⟨u.path, rfl⟩

private theorem ofItem_outer {fields : Fields} {count : Nat} {v : Violation} (found : v ∈ outerFaults fields count)
    (i : Nat) : v.ofItem i = false := by
  obtain ⟨key, path⟩ := path_of_outer found
  simp [Violation.ofItem, path, List.isPrefixOf]

private theorem ofItem_item {i j : Nat} {v : Violation} {item : Value} (found : v ∈ itemFaults j item) :
    v.ofItem i = decide (i = j) := by
  obtain ⟨rest, path⟩ := path_of_item found
  have same : i.repr = j.repr ↔ i = j := ⟨Json.repr_injective, congrArg Nat.repr⟩
  have begins : v.ofItem i = (i.repr == j.repr) := by simp [Violation.ofItem, path, List.isPrefixOf]
  rw [begins, Bool.eq_iff_iff, beq_iff_eq, decide_eq_true_iff, same]

private theorem ofItem_faultsAt {values : List Value} {i j : Nat} {v : Violation} (found : v ∈ faultsAt values j) :
    v.ofItem i = decide (i = j) := by
  unfold faultsAt at found
  cases here : values[j]? with
  | none =>
    rw [here] at found
    cases found
  | some item =>
    rw [here] at found
    exact ofItem_item found

private theorem filter_of_constant {α : Type} {p : α → Bool} {b : Bool} {xs : List α} (constant : ∀ x ∈ xs, p x = b) :
    xs.filter p = if b then xs else [] := by
  cases b with
  | true => exact List.filter_eq_self.2 constant
  | false =>
    refine List.filter_eq_nil_iff.2 fun x member => ?_
    rw [constant x member]
    exact Bool.false_ne_true

/-- Whether a fault counts may depend on whether it is one of a given condition: all of those of a condition count then,
or none of them. -/
theorem filter_found {fields : Fields} {values : List Value} (listed : fields.lookup "conditions" = some (.array values))
    (i : Nat) (keep : Bool → Bool) :
    ((filter (.object fields)).found.filter fun v => keep (v.ofItem i)) =
      (if keep false then outerFaults fields values.length else []) ++
        (List.range values.length).flatMap fun j => if keep (decide (i = j)) then faultsAt values j else [] := by
  have outer : (outerFaults fields values.length).filter (fun v => keep (v.ofItem i)) =
      if keep false then outerFaults fields values.length else [] :=
    filter_of_constant fun v found => by rw [ofItem_outer found]
  have each (j : Nat) : (faultsAt values j).filter (fun v => keep (v.ofItem i)) =
      if keep (decide (i = j)) then faultsAt values j else [] :=
    filter_of_constant fun v found => by rw [ofItem_faultsAt found]
  rw [found_filter listed, List.filter_append, outer, List.filter_flatMap]
  simp only [each]

private theorem flatMap_range_single {α : Type} (group : Nat → List α) {i n : Nat} (below : i < n) :
    ((List.range n).flatMap fun j => if i = j then group j else []) = group i := by
  obtain ⟨n, rfl⟩ := Nat.exists_eq_add_of_lt below
  induction i generalizing group with
  | zero =>
    rw [List.range_succ_eq_map, List.flatMap_cons, List.flatMap_map, if_pos rfl]
    simp
  | succ i ih =>
    have next := ih (fun j => group (j + 1)) (by omega)
    rw [Nat.add_right_comm i 1 n, List.range_succ_eq_map, List.flatMap_cons, List.flatMap_map, if_neg (Nat.succ_ne_zero i)]
    simpa using next

private theorem filter_found_item {fields : Fields} {values : List Value}
    (listed : fields.lookup "conditions" = some (.array values)) {i : Nat} {item : Value}
    (here : values[i]? = some item) : (filter (.object fields)).found.filter (Violation.ofItem i) = itemFaults i item := by
  have only := filter_found listed i id
  obtain ⟨below, -⟩ := List.getElem?_eq_some_iff.1 here
  simp only [id_eq, Bool.false_eq_true, if_false, List.nil_append, decide_eq_true_eq] at only
  rw [only, flatMap_range_single _ below, faultsAt, here]
  rfl

private theorem found_alone {item : Value} {fields : Fields} (alone : Alone item fields) :
    (filter (.object fields)).found = itemFaults 0 item := by
  obtain ⟨only, ⟨l, logic_read⟩, listed⟩ := alone
  have logic_passes := (required_passes logic_passes).2 logic_read
  have nothing : outerFaults fields 1 = [] := by
    rw [outerFaults, foreign_eq_nil.2 only, logic_passes.2]
    rfl
  have found := found_filter listed
  rw [List.length_singleton, nothing, List.nil_append, List.range_one, List.flatMap_singleton] at found
  rw [found]
  rfl

private theorem toItem_itemFaults (i j : Nat) (item : Value) :
    (itemFaults j item).map (Violation.toItem i) = itemFaults i item := by
  simp only [itemFaults, List.map_map]
  rfl

private theorem lookup_withConditions (fields : Fields) (values : List Value) (key : String) :
    (withConditions fields values).lookup key =
      (fields.lookup key).map fun value => if key = "conditions" then .array values else value := by
  induction fields with
  | nil => rfl
  | cons field rest ih =>
    obtain ⟨name, value⟩ := field
    rw [Dictionary.lookup_entry]
    change List.lookup key ((name, if name = "conditions" then .array values else value) :: withConditions rest values) = _
    rw [Dictionary.lookup_entry, ih]
    by_cases same : key = name
    · subst same
      rw [if_pos rfl, if_pos rfl, Option.map_some]
    · rw [if_neg same, if_neg same]

private theorem outerFaults_withConditions (fields : Fields) (values : List Value) (count : Nat) :
    outerFaults (withConditions fields values) count = outerFaults fields count := by
  have foreign_eq : foreign ["logic", "conditions"] (withConditions fields values) =
      foreign ["logic", "conditions"] fields := by
    rw [foreign, foreign, withConditions, List.filter_map, List.map_map]
    rfl
  have logic_eq : required (withConditions fields values) "logic" logic = required fields "logic" logic := by
    rw [required, required, lookup_withConditions]
    cases fields.lookup "logic" <;> rfl
  rw [outerFaults, outerFaults, foreign_eq, logic_eq]

/-- A condition without faults in place of another takes the faults of that one away. -/
theorem found_replaced {fields : Fields} {values : List Value} (listed : fields.lookup "conditions" = some (.array values))
    {i : Nat} {fixed : Value} (valid : (condition fixed).found = []) :
    (filter (.object (withConditions fields (values.set i fixed)))).found =
      (filter (.object fields)).found.filter fun v => !v.ofItem i := by
  have relisted : (withConditions fields (values.set i fixed)).lookup "conditions" = some (.array (values.set i fixed)) := by
    rw [lookup_withConditions, listed, Option.map_some, if_pos rfl]
  rw [found_filter relisted, filter_found listed i not, outerFaults_withConditions, List.length_set]
  -- Place by place: what was found there, and nothing where the valid condition stands.
  refine congrArg (outerFaults fields values.length ++ ·) (List.flatMap_congr fun j member => ?_)
  have below := List.mem_range.1 member
  by_cases same : i = j
  · subst same
    rw [decide_eq_true rfl, faultsAt, List.getElem?_set_self below]
    simp [itemFaults, valid]
  · rw [decide_eq_false same, faultsAt, List.getElem?_set_ne same]
    rfl

end Document

/-- Of all that is wrong with a document, what is in one condition is what that condition is rejected for alone, under
its own number. These faults come condition by condition, after what is wrong around them, and a valid condition in
place of another takes away what was wrong with that one and nothing else. -/
theorem Expression.violations_by_condition {fields : Fields} {values : List Value}
    (listed : fields.lookup "conditions" = some (.array values)) :
    (violations (.object fields) = Document.outerFaults fields values.length ++
        (List.range values.length).flatMap fun i => (violations (.object fields)).filter (Violation.ofItem i)) ∧
      (∀ v ∈ Document.outerFaults fields values.length, ∀ i, v.ofItem i = false) ∧
      ∀ i item, values[i]? = some item →
        (∀ alone, Alone item alone →
          (∀ v ∈ violations (.object alone), v.ofItem 0 = true) ∧
            (violations (.object fields)).filter (Violation.ofItem i) =
              (violations (.object alone)).map (Violation.toItem i)) ∧
        ∀ fixed, (∃ c, IsCondition fixed c) →
          violations (.object (withConditions fields (values.set i fixed))) =
            (violations (.object fields)).filter fun v => !v.ofItem i := by
  simp only [violations_eq_found]
  have groups : (List.range values.length).flatMap (Document.faultsAt values) = (List.range values.length).flatMap fun i =>
      (Document.filter (.object fields)).found.filter (Violation.ofItem i) := by
    refine List.flatMap_congr fun i member => ?_
    have here := List.getElem?_eq_getElem (List.mem_range.1 member)
    rw [Document.filter_found_item listed here, Document.faultsAt, here]
    rfl
  refine ⟨?_, fun v found i => Document.ofItem_outer found i, ?_⟩
  · rw [← groups]
    exact Document.found_filter listed
  · intro i item here
    constructor
    · intro alone single
      rw [Document.found_alone single]
      constructor
      · intro v found
        exact Document.ofItem_item found
      · rw [Document.toItem_itemFaults]
        exact Document.filter_found_item listed here
    · rintro fixed ⟨c, read⟩
      exact Document.found_replaced listed (Document.condition_passes.2 read).2

theorem Expression.violations_by_condition_sample :
    let fields : Fields := [("conditions", .array [.null, .boolean true]), ("extra", .null)]
    let alone : Fields := [("logic", .text "AND"), ("conditions", .array [.boolean true])]
    (violations (.object fields)).filter (Violation.ofItem 1) =
      (violations (.object alone)).map (Violation.toItem 1) := by
  intro fields alone
  have listed : fields.lookup "conditions" = some (.array [.null, .boolean true]) := rfl
  have only : Only ["logic", "conditions"] alone := by
    intro field member
    simp only [alone, List.mem_cons, List.not_mem_nil, or_false] at member
    rcases member with rfl | rfl <;> decide
  have single : Alone (.boolean true) alone := ⟨only, ⟨.all, _, rfl, .all⟩, rfl⟩
  obtain ⟨-, -, each⟩ := Expression.violations_by_condition listed
  exact ((each 1 _ rfl).1 alone single).2

end Screener.Filter
