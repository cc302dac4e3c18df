/-! Values under names. The names of a dictionary ascend, so two dictionaries with the same content are equal. -/
namespace Screener

structure Dictionary (β : Type) where
  entries : List (String × β)
  ascending : entries.Pairwise fun a b => a.1 < b.1

namespace Dictionary
variable {β : Type}

def empty : Dictionary β := ⟨[], .nil⟩

instance : Inhabited (Dictionary β) := ⟨empty⟩

def isEmpty (d : Dictionary β) : Bool := d.entries.isEmpty

def names (d : Dictionary β) : List String := d.entries.map (·.1)

def get? (d : Dictionary β) (name : String) : Option β := d.entries.lookup name

def contains (d : Dictionary β) (name : String) : Bool := (d.get? name).isSome

/-- Puts a value under a name into entries with ascending names, in place of one that is there. -/
def insertEntry (name : String) (value : β) : List (String × β) → List (String × β)
  | [] => [(name, value)]
  | entry :: rest =>
    if name < entry.1 then (name, value) :: entry :: rest
    else if name = entry.1 then (name, value) :: rest
    else entry :: insertEntry name value rest

theorem fst_mem_insertEntry {name : String} {value : β} {entries : List (String × β)} {x : String × β}
    (h : x ∈ insertEntry name value entries) : x.1 = name ∨ x ∈ entries := by
  induction entries with
  | nil => simp_all [insertEntry]
  | cons entry rest ih =>
    simp only [insertEntry] at h
    split at h
    · rcases List.mem_cons.1 h with rfl | h
      · exact .inl rfl
      · exact .inr h
    · split at h
      · rcases List.mem_cons.1 h with rfl | h
        · exact .inl rfl
        · exact .inr (List.mem_cons_of_mem _ h)
      · rcases List.mem_cons.1 h with rfl | h
        · exact .inr List.mem_cons_self
        · exact (ih h).imp_right (List.mem_cons_of_mem _)

theorem lt_of_not_lt {a b : String} (h : ¬a < b) (ne : a ≠ b) : b < a := by
  by_cases g : b < a
  · exact g
  · exact absurd (String.le_antisymm (String.not_lt.1 g) (String.not_lt.1 h)) ne

theorem insertEntry_ascending (name : String) (value : β) {entries : List (String × β)}
    (h : entries.Pairwise fun a b => a.1 < b.1) :
    (insertEntry name value entries).Pairwise fun a b => a.1 < b.1 := by
  induction entries with
  | nil => simp [insertEntry]
  | cons entry rest ih =>
    obtain ⟨first, others⟩ := List.pairwise_cons.1 h
    simp only [insertEntry]
    split
    · rename_i lt
      refine List.pairwise_cons.2 ⟨fun x hx => ?_, h⟩
      rcases List.mem_cons.1 hx with rfl | hx
      · exact lt
      · exact String.lt_trans lt (first x hx)
    · rename_i ge
      split
      · rename_i eq
        exact List.pairwise_cons.2 ⟨fun x hx => eq ▸ first x hx, others⟩
      · rename_i ne
        refine List.pairwise_cons.2 ⟨fun x hx => ?_, ih others⟩
        rcases fst_mem_insertEntry hx with eq | hx
        · exact eq ▸ lt_of_not_lt ge ne
        · exact first x hx

def insert (d : Dictionary β) (name : String) (value : β) : Dictionary β :=
  ⟨insertEntry name value d.entries, insertEntry_ascending name value d.ascending⟩

def restrict (d : Dictionary β) (keep : String → Bool) : Dictionary β :=
  ⟨d.entries.filter fun entry => keep entry.1, d.ascending.filter _⟩

def erase (d : Dictionary β) (name : String) : Dictionary β := d.restrict (· != name)

def merge (d later : Dictionary β) : Dictionary β :=
  later.entries.foldl (fun all entry => all.insert entry.1 entry.2) d

def ofList (entries : List (String × β)) : Dictionary β :=
  entries.foldl (fun all entry => all.insert entry.1 entry.2) empty

theorem lookup_entry (name key : String) (value : β) (rest : List (String × β)) :
    ((name, value) :: rest).lookup key = if key = name then some value else rest.lookup key := by
  by_cases eq : key = name
  · simp [eq]
  · simp [List.lookup_cons, eq, beq_eq_false_iff_ne.2 eq]

theorem lookup_insertEntry (name key : String) (value : β) (entries : List (String × β)) :
    (insertEntry name value entries).lookup key =
      if key = name then some value else entries.lookup key := by
  induction entries with
  | nil => rw [insertEntry, lookup_entry]
  | cons entry rest ih =>
    obtain ⟨n, v⟩ := entry
    simp only [insertEntry]
    split
    · rw [lookup_entry]
    · split
      · rename_i eq
        subst eq
        by_cases eq : key = name <;> simp [lookup_entry, eq]
      · rename_i ne
        rw [lookup_entry, lookup_entry, ih]
        by_cases eq : key = n
        · subst eq
          simp [Ne.symm ne]
        · simp [eq]

theorem get?_insert (d : Dictionary β) (name key : String) (value : β) :
    (d.insert name value).get? key = if key = name then some value else d.get? key :=
  lookup_insertEntry name key value d.entries

@[simp] theorem get?_empty (name : String) : (empty : Dictionary β).get? name = none := rfl

theorem lookup_filter (keep : String → Bool) (name : String) (entries : List (String × β)) :
    (entries.filter fun entry => keep entry.1).lookup name =
      if keep name then entries.lookup name else none := by
  induction entries with
  | nil => simp
  | cons entry rest ih =>
    obtain ⟨n, v⟩ := entry
    by_cases kept : keep n
    · rw [List.filter_cons_of_pos (by exact kept), lookup_entry, lookup_entry, ih]
      by_cases eq : name = n
      · simp [eq, kept]
      · simp [eq]
    · rw [List.filter_cons_of_neg (by exact kept), lookup_entry, ih]
      by_cases eq : name = n
      · simp [eq, kept]
      · simp [eq]

theorem get?_restrict (d : Dictionary β) (keep : String → Bool) (name : String) :
    (d.restrict keep).get? name = if keep name then d.get? name else none :=
  lookup_filter keep name d.entries

theorem get?_erase (d : Dictionary β) (name key : String) :
    (d.erase name).get? key = if key = name then none else d.get? key := by
  rw [erase, get?_restrict]
  by_cases eq : key = name <;> simp [eq]

theorem contains_insert (d : Dictionary β) (name key : String) (value : β) :
    (d.insert name value).contains key = (key == name || d.contains key) := by
  unfold contains
  rw [get?_insert]
  by_cases eq : key = name <;> simp [eq]

theorem contains_foldl_insert (entries : List (String × β)) (d : Dictionary β) (name : String) :
    (entries.foldl (fun all entry => all.insert entry.1 entry.2) d).contains name =
      (d.contains name || (entries.lookup name).isSome) := by
  induction entries generalizing d with
  | nil => simp
  | cons entry rest ih =>
    obtain ⟨n, v⟩ := entry
    rw [List.foldl_cons, ih, contains_insert, lookup_entry]
    by_cases eq : name = n
    · simp [eq]
    · simp [eq, beq_eq_false_iff_ne.2 eq]

theorem contains_merge (d later : Dictionary β) (name : String) :
    (d.merge later).contains name = (d.contains name || later.contains name) :=
  contains_foldl_insert later.entries d name

theorem names_ascending (d : Dictionary β) : d.names.Pairwise (· < ·) :=
  List.pairwise_map.2 d.ascending

@[ext] theorem ext {a b : Dictionary β} (h : a.entries = b.entries) : a = b := by
  cases a; cases b; simp_all

end Dictionary
end Screener
