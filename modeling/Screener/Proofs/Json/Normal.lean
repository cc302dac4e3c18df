import Screener.Dictionary
import Screener.Proofs.Json.Pointer

/-! The form of documents in which keys ascend. Their fields are those of the document before, so what stands under a
key is found again, and no key is there twice. -/
namespace Screener.Json

private theorem mem_place {field other : String × Value} {fields : Fields}
    (member : other ∈ Fields.place field fields) : other = field ∨ other ∈ fields := by
  induction fields with
  | nil => exact .inl (List.mem_singleton.1 member)
  | cons next rest ih =>
    unfold Fields.place at member
    split at member
    · exact List.mem_cons.1 member
    · split at member
      · exact .inr member
      · rcases List.mem_cons.1 member with rfl | further
        · exact .inr List.mem_cons_self
        · exact (ih further).imp_right (List.mem_cons_of_mem next)

private theorem lookup_place {key : String} {value : Value} {fields : Fields} (fresh : key ∉ fields.map Prod.fst)
    (other : String) :
    (Fields.place (key, value) fields).lookup other = if other = key then some value else fields.lookup other := by
  induction fields with
  | nil => rw [Fields.place, Dictionary.lookup_entry]
  | cons next rest ih =>
    obtain ⟨next_key, next_value⟩ := next
    obtain ⟨differs, fresh_rest⟩ := not_or.1 (mt List.mem_cons.2 fresh)
    unfold Fields.place
    split
    · rw [Dictionary.lookup_entry]
    · rw [Dictionary.lookup_entry, ih fresh_rest, Dictionary.lookup_entry]
      by_cases same : other = key
      · subst same
        rw [if_neg differs, if_pos rfl, if_pos rfl]
      · rw [if_neg same, if_neg same]

private theorem place_ascending (field : String × Value) {fields : Fields}
    (ascending : fields.Pairwise fun a b => a.1 < b.1) : (Fields.place field fields).Pairwise fun a b => a.1 < b.1 := by
  induction fields with
  | nil => exact List.pairwise_singleton _ _
  | cons next rest ih =>
    obtain ⟨first, others⟩ := List.pairwise_cons.1 ascending
    unfold Fields.place
    split
    · rename_i less
      refine List.pairwise_cons.2 ⟨fun other member => ?_, ascending⟩
      rcases List.mem_cons.1 member with rfl | further
      · exact less
      · exact String.lt_trans less (first other further)
    · rename_i not_less
      split
      · exact ascending
      · rename_i differs
        refine List.pairwise_cons.2 ⟨fun other member => ?_, ih others⟩
        rcases mem_place member with rfl | further
        · exact Dictionary.lt_of_not_lt not_less differs
        · exact first other further

private theorem normalFields_ascending (fields : Fields) : (normalFields fields).Pairwise fun a b => a.1 < b.1 := by
  induction fields with
  | nil =>
    rw [normalFields]
    exact .nil
  | cons field rest ih =>
    rw [normalFields]
    exact place_ascending _ ih

private theorem nodup_of_ascending {fields : Fields} (ascending : fields.Pairwise fun a b => a.1 < b.1) :
    (fields.map Prod.fst).Nodup := by
  refine List.pairwise_map.2 (ascending.imp ?_)
  intro a b less same
  rw [same] at less
  exact String.lt_irrefl _ less

theorem mem_normalFields {key : String} {value : Value} {fields : Fields} (member : (key, value) ∈ normalFields fields) :
    ∃ original, (key, original) ∈ fields ∧ value = original.normal := by
  induction fields with
  | nil =>
    rw [normalFields] at member
    cases member
  | cons field rest ih =>
    rw [normalFields] at member
    rcases mem_place member with same | further
    · cases same
      exact ⟨_, List.mem_cons_self, rfl⟩
    · obtain ⟨original, there, same⟩ := ih further
      exact ⟨original, List.mem_cons_of_mem _ there, same⟩

theorem lookup_normalFields {fields : Fields} (distinct : (fields.map Prod.fst).Nodup) (key : String) :
    (normalFields fields).lookup key = (fields.lookup key).map Value.normal := by
  induction fields with
  | nil =>
    rw [normalFields]
    rfl
  | cons field rest ih =>
    obtain ⟨name, value⟩ := field
    obtain ⟨fresh, rest_distinct⟩ := List.nodup_cons.1 distinct
    have fresh_normal : name ∉ (normalFields rest).map Prod.fst := by
      intro member
      obtain ⟨⟨_, _⟩, inside, rfl⟩ := List.mem_map.1 member
      obtain ⟨original, there, -⟩ := mem_normalFields inside
      exact fresh (List.mem_map.2 ⟨_, there, rfl⟩)
    rw [normalFields, lookup_place fresh_normal, Dictionary.lookup_entry, ih rest_distinct]
    by_cases same : key = name
    · rw [if_pos same, if_pos same, Option.map_some]
    · rw [if_neg same, if_neg same]

theorem normalItems_eq_map (items : List Value) : normalItems items = items.map Value.normal := by
  induction items with
  | nil => rw [normalItems, List.map_nil]
  | cons item rest ih => rw [normalItems, ih, List.map_cons]

private theorem child?_normal {value child : Value} {step : String} (below : value.normal.child? step = some child) :
    ∃ original : Value, child = original.normal := by
  cases value with
  | object fields =>
    rw [Value.normal, Value.child?] at below
    have distinct := nodup_of_ascending (normalFields_ascending fields)
    obtain ⟨original, -, same⟩ := mem_normalFields ((lookup_eq_some_iff_mem distinct).1 below)
    exact ⟨original, same⟩
  | array items =>
    rw [Value.normal, Value.child?, normalItems_eq_map] at below
    obtain ⟨i, -, here⟩ := Option.bind_eq_some_iff.1 below
    rw [List.getElem?_map] at here
    obtain ⟨original, -, same⟩ := Option.map_eq_some_iff.1 here
    exact ⟨original, same.symm⟩
  | _ =>
    rw [Value.normal, Value.child?] at below
    · cases below
    all_goals simp

theorem distinct_normal (value : Value) : value.normal.Distinct := by
  intro pointer fields reached
  induction pointer generalizing value with
  | nil =>
    rw [Value.at?_nil] at reached
    cases value with
    | object original =>
      rw [Value.normal] at reached
      cases reached
      exact nodup_of_ascending (normalFields_ascending original)
    | array items =>
      rw [Value.normal] at reached
      cases reached
    | _ =>
      rw [Value.normal] at reached
      · cases reached
      all_goals simp
  | cons step rest ih =>
    rw [Value.at?_cons] at reached
    obtain ⟨child, below, further⟩ := Option.bind_eq_some_iff.1 reached
    obtain ⟨original, rfl⟩ := child?_normal below
    exact ih original further

private theorem normalFields_of_ascending {fields : Fields} (ascending : fields.Pairwise fun a b => a.1 < b.1)
    (normal : ∀ field ∈ fields, field.2.normal = field.2) : normalFields fields = fields := by
  induction fields with
  | nil => rw [normalFields]
  | cons field rest ih =>
    obtain ⟨key, value⟩ := field
    obtain ⟨first, others⟩ := List.pairwise_cons.1 ascending
    obtain ⟨here, later⟩ := List.forall_mem_cons.1 normal
    have same : value.normal = value := here
    rw [normalFields, same, ih others later]
    cases rest with
    | nil => rfl
    | cons next more => rw [Fields.place, if_pos (first next List.mem_cons_self)]

mutual

/-- A value in the form with ascending keys stays as it is. -/
theorem normal_normal : ∀ value : Value, value.normal.normal = value.normal
  | .array items => by
    have each : ∀ item ∈ items.map Value.normal, item.normal = item := by
      rw [← normalItems_eq_map]
      exact normal_of_mem_items items
    rw [Value.normal, Value.normal, normalItems_eq_map, normalItems_eq_map, List.map_congr_left each, List.map_id']
  | .object fields => by
    rw [Value.normal, Value.normal, normalFields_of_ascending (normalFields_ascending fields) (normal_of_mem_fields fields)]
  | .null | .boolean _ | .number _ | .text _ => rfl

theorem normal_of_mem_items : ∀ items : List Value, ∀ item ∈ normalItems items, item.normal = item
  | [], _, inside => nomatch inside
  | first :: rest, item, inside => by
    rcases List.mem_cons.1 inside with rfl | later
    · exact normal_normal first
    · exact normal_of_mem_items rest item later

theorem normal_of_mem_fields : ∀ fields : Fields, ∀ field ∈ normalFields fields, field.2.normal = field.2
  | [], _, inside => nomatch inside
  | (key, value) :: rest, field, inside => by
    rw [normalFields] at inside
    rcases mem_place inside with rfl | later
    · exact normal_normal value
    · exact normal_of_mem_fields rest field later

end

end Screener.Json
