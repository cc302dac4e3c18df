import Screener.Dictionary
import Screener.Proofs.Json.Pointer
import Mathlib.Data.List.Sort

/-! A dictionary is what its names stand for. Merged ones hold under each name what was put there last, so it does not
matter in which order several are merged. -/
namespace Screener.Dictionary
variable {β : Type}

theorem nodup_names (d : Dictionary β) : d.names.Nodup :=
  d.names_ascending.imp String.ne_of_lt

theorem get?_eq_some_iff (d : Dictionary β) {name : String} {value : β} :
    d.get? name = some value ↔ (name, value) ∈ d.entries :=
  Json.lookup_eq_some_iff_mem d.nodup_names

theorem mem_names_iff (d : Dictionary β) {name : String} : name ∈ d.names ↔ d.contains name := by
  simp only [contains, get?, List.lookup_isSome_iff, names, List.mem_map, beq_iff_eq, eq_comm (a := name)]

theorem mem_names_ofList {entries : List (String × β)} {name : String} :
    name ∈ (ofList entries).names ↔ name ∈ entries.map Prod.fst := by
  rw [mem_names_iff, ofList, contains_foldl_insert, contains, get?_empty, Option.isSome_none, Bool.false_or,
    List.lookup_isSome_iff]
  simp only [List.mem_map, beq_iff_eq, eq_comm (a := name)]

theorem eq_of_get? {a b : Dictionary β} (same : ∀ name, a.get? name = b.get? name) : a = b := by
  have members : ∀ entry, entry ∈ a.entries ↔ entry ∈ b.entries := by
    rintro ⟨name, value⟩
    rw [← get?_eq_some_iff, ← get?_eq_some_iff, same]
  have : Std.Irrefl fun x y : String × β => x.1 < y.1 := ⟨fun x => String.lt_irrefl x.1⟩
  have : Std.Antisymm fun x y : String × β => x.1 < y.1 := ⟨fun _ _ less more => absurd more (String.lt_asymm less)⟩
  exact ext (a.ascending.eq_of_mem_iff b.ascending members)

private theorem get?_foldl_insert {entries : List (String × β)} (ascending : entries.Pairwise fun a b => a.1 < b.1)
    (d : Dictionary β) (name : String) :
    (entries.foldl (fun all entry => all.insert entry.1 entry.2) d).get? name =
      (entries.lookup name).or (d.get? name) := by
  induction entries generalizing d with
  | nil => rfl
  | cons entry rest ih =>
    obtain ⟨key, value⟩ := entry
    obtain ⟨first, others⟩ := List.pairwise_cons.1 ascending
    rw [List.foldl_cons, ih others, get?_insert, lookup_entry]
    by_cases found : name = key
    · have absent : rest.lookup name = none := by
        refine List.lookup_eq_none_iff.2 fun other member => bne_iff_ne.2 ?_
        exact found ▸ String.ne_of_lt (first other member)
      rw [absent, if_pos found, if_pos found]
      rfl
    · rw [if_neg found, if_neg found]

theorem get?_merge (d later : Dictionary β) (name : String) :
    (d.merge later).get? name = (later.get? name).or (d.get? name) :=
  get?_foldl_insert later.ascending d name

theorem ofList_entries (d : Dictionary β) : ofList d.entries = d := by
  refine eq_of_get? fun name => ?_
  rw [ofList, get?_foldl_insert d.ascending, get?_empty, Option.or_none]
  rfl

theorem merge_assoc (a b c : Dictionary β) : (a.merge b).merge c = a.merge (b.merge c) := by
  refine eq_of_get? fun name => ?_
  rw [get?_merge, get?_merge, get?_merge, get?_merge, Option.or_assoc]

end Screener.Dictionary
