import Screener.Json.Pointer
import Screener.Json.Value

/-! Where a pointer leads. Its steps go down from the root of a document, by a key into an object and by the number
of an item into an array; its text can be read back, so that pointers of one text are equal. -/
namespace Screener.Json

namespace Pointer

def restore (mark character : Char) : List Char → List Char
  | '~' :: c :: rest =>
    if c = mark then character :: restore mark character rest else '~' :: restore mark character (c :: rest)
  | c :: rest => c :: restore mark character rest
  | [] => []

/-- A step as read from the text: the slashes are put back first, then the tildes. -/
def unescape (cs : List Char) : List Char := restore '0' '~' (restore '1' '/' cs)

/-- A text without any step is the root; all others begin with a slash. -/
def ofText? (text : String) : Option Pointer :=
  match text.toList with
  | [] => some []
  | c :: rest =>
    if c = '/' then some ((rest.splitOn '/').map fun step => String.ofList (unescape step)) else none

private theorem restore_cons {mark character c : Char} (plain : c ≠ '~') (rest : List Char) :
    restore mark character (c :: rest) = c :: restore mark character rest := by
  conv => lhs; unfold restore
  split <;> simp_all

private theorem restore_tilde {mark character c : Char} (other : c ≠ mark) (rest : List Char) :
    restore mark character ('~' :: c :: rest) = '~' :: restore mark character (c :: rest) := by
  rw [restore, if_neg other]

private theorem unescape_escape (step : String) : unescape (escape step) = step.toList := by
  -- A tilde is followed by a zero in the text, so no slash is put back inside it.
  have slashes (cs : List Char) : restore '1' '/' (cs.flatMap fun c =>
      if c = '~' then ['~', '0'] else if c = '/' then ['~', '1'] else [c]) =
        cs.flatMap fun c => if c = '~' then ['~', '0'] else [c] := by
    induction cs with
    | nil => rfl
    | cons c rest ih =>
      rw [List.flatMap_cons, List.flatMap_cons]
      by_cases tilde : c = '~'
      · rw [if_pos tilde, if_pos tilde, List.cons_append, List.singleton_append,
          restore_tilde (by decide), restore_cons (by decide), ih]
        rfl
      · by_cases slash : c = '/'
        · subst slash
          rw [if_neg tilde, if_neg tilde, if_pos rfl, List.cons_append, List.singleton_append, restore, if_pos rfl, ih]
          rfl
        · rw [if_neg tilde, if_neg tilde, if_neg slash, List.singleton_append, restore_cons tilde, ih]
          rfl
  have tildes (cs : List Char) : restore '0' '~' (cs.flatMap fun c => if c = '~' then ['~', '0'] else [c]) = cs := by
    induction cs with
    | nil => rfl
    | cons c rest ih =>
      rw [List.flatMap_cons]
      by_cases tilde : c = '~'
      · rw [if_pos tilde, List.cons_append, List.singleton_append, restore, if_pos rfl, ih, tilde]
      · rw [if_neg tilde, List.singleton_append, restore_cons tilde, ih]
  rw [unescape, escape, slashes, tildes]

private theorem slash_not_mem_escape (step : String) : ∀ c ∈ escape step, (c == '/') = false := by
  have marks_plain (mark : Char) (plain : mark ≠ '/') : ∀ c ∈ ['~', mark], (c == '/') = false := by
    simp [plain]
  intro c member
  obtain ⟨original, -, inside⟩ := List.mem_flatMap.1 member
  by_cases tilde : original = '~'
  · rw [if_pos tilde] at inside
    exact marks_plain '0' (by decide) c inside
  · by_cases slash : original = '/'
    · rw [if_neg tilde, if_pos slash] at inside
      exact marks_plain '1' (by decide) c inside
    · rw [if_neg tilde, if_neg slash, List.mem_singleton] at inside
      subst inside
      exact beq_eq_false_iff_ne.2 slash

private theorem splitOn_chars (step : String) (rest : Pointer) :
    (escape step ++ chars rest).splitOn '/' = (step :: rest).map escape := by
  induction rest generalizing step with
  | nil =>
    rw [chars, List.flatMap_nil, List.append_nil]
    exact List.splitOnP_eq_singleton (slash_not_mem_escape step)
  | cons next rest ih =>
    have further : chars (next :: rest) = '/' :: (escape next ++ chars rest) := by
      simp [chars]
    rw [further, List.splitOn, List.splitOnP_append_cons_of_forall_mem (slash_not_mem_escape step) '/' (by decide)]
    exact congrArg (escape step :: ·) (ih next)

/-- A pointer can be read back from its text, whatever characters are in its steps. -/
theorem ofText?_text (pointer : Pointer) : ofText? pointer.text = some pointer := by
  cases pointer with
  | nil => rfl
  | cons step rest =>
    have shape : (text (step :: rest)).toList = '/' :: (escape step ++ chars rest) := by
      simp [text, chars]
    have steps : ((step :: rest).map escape).map (fun cs => String.ofList (unescape cs)) = step :: rest := by
      rw [List.map_map]
      refine List.map_id'' (fun s => ?_) _
      rw [Function.comp, unescape_escape, String.ofList_toList]
    unfold ofText?
    rw [shape]
    simp only [if_true]
    rw [splitOn_chars, steps]

theorem text_injective {a b : Pointer} (same : a.text = b.text) : a = b := by
  have read := ofText?_text a
  rw [same, ofText?_text] at read
  exact (Option.some.inj read).symm

end Pointer

theorem lookup_eq_some_iff_mem {κ α : Type} [BEq κ] [LawfulBEq κ] {entries : List (κ × α)}
    (distinct : (entries.map Prod.fst).Nodup) {key : κ} {x : α} : entries.lookup key = some x ↔ (key, x) ∈ entries := by
  induction entries with
  | nil => simp
  | cons entry rest ih =>
    obtain ⟨other, y⟩ := entry
    obtain ⟨fresh, rest_distinct⟩ := List.nodup_cons.1 distinct
    rw [List.lookup_cons, List.mem_cons, Prod.mk.injEq]
    by_cases same : key = other
    · subst same
      have absent : (key, x) ∉ rest := by
        intro member
        exact fresh (List.mem_map.2 ⟨_, member, rfl⟩)
      simp [absent, eq_comm]
    · rw [beq_eq_false_iff_ne.2 same]
      simp [same, ih rest_distinct]

def index? (step : String) : Option Nat :=
  let i := Nat.ofDigitChars 10 step.toList 0
  if i.repr = step then some i else none

theorem index?_repr (i : Nat) : index? i.repr = some i := by
  simp [index?]

theorem repr_injective {i j : Nat} (same : i.repr = j.repr) : i = j := by
  have read := index?_repr i
  rw [same, index?_repr] at read
  exact (Option.some.inj read).symm

namespace Value

def child? : Value → String → Option Value
  | .object fields, step => fields.lookup step
  | .array items, step => (index? step).bind fun i => items[i]?
  | _, _ => none

/-- The value to which a pointer leads. -/
def at? : Value → Pointer → Option Value
  | value, [] => some value
  | value, step :: rest => (value.child? step).bind fun child => child.at? rest

@[simp] theorem at?_nil (value : Value) : value.at? [] = some value := by rw [at?]

theorem at?_cons (value : Value) (step : String) (rest : Pointer) :
    value.at? (step :: rest) = (value.child? step).bind fun child => child.at? rest := by rw [at?]

theorem child?_item {items : List Value} {i : Nat} {item : Value} (here : items[i]? = some item) :
    (Value.array items).child? i.repr = some item := by
  rw [child?, index?_repr]
  exact here

/-- No object in the document has a key twice. -/
def Distinct (value : Value) : Prop :=
  ∀ pointer fields, value.at? pointer = some (.object fields) → (fields.map Prod.fst).Nodup

theorem Distinct.child {value child : Value} {step : String} (distinct : value.Distinct)
    (below : value.child? step = some child) : child.Distinct := by
  intro pointer fields reached
  refine distinct (step :: pointer) fields ?_
  rw [at?_cons, below]
  exact reached

theorem Distinct.keys {fields : Fields} (distinct : (Value.object fields).Distinct) :
    (fields.map Prod.fst).Nodup := distinct [] fields (at?_nil _)

end Value
end Screener.Json
