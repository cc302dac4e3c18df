import Mathlib.Data.List.Nodup
import Screener.Filter.Document
import Screener.Proofs.Json.Pointer

/-! Where faults are reported. A check that gives no value found something; what it found is where its path leads, and
never twice in one place. Checks of different parts keep apart since their paths begin with different steps. -/
namespace Screener.Filter
open Json (Value Fields Pointer)

/-- A pointer that leads to a value, or that names a key which the object above does not have. -/
inductive Located (value : Value) : Pointer → Prop
  | there {pointer : Pointer} {target : Value} (reached : value.at? pointer = some target) : Located value pointer
  | absent {parent : Pointer} {key : String} {fields : Fields} (reached : value.at? parent = some (.object fields))
    (missing : fields.lookup key = none) : Located value (parent ++ [key])

theorem Located.root (value : Value) : Located value [] := .there (Value.at?_nil value)

theorem Located.under {value child : Value} {step : String} {pointer : Pointer} (below : value.child? step = some child)
    (located : Located child pointer) : Located value (step :: pointer) := by
  have further (rest : Pointer) : value.at? (step :: rest) = child.at? rest := by
    rw [Value.at?_cons, below, Option.bind_some]
  cases located with
  | there reached => exact .there ((further _).trans reached)
  | absent reached missing => exact .absent ((further _).trans reached) missing

variable {α β γ : Type}

/-- What a check of the value may report. -/
structure Sound (value : Value) (c : Checked α) : Prop where
  blamed : c.value = none → c.found ≠ []
  specific : ∀ v ∈ c.found, v.reason ≠ .unspecified
  located : ∀ v ∈ c.found, Located value v.path
  apart : value.Distinct → (c.found.map Violation.path).Nodup

/-- The check reports only about some of the parts of the value. -/
structure Within (value : Value) (steps : List String) (c : Checked α) : Prop extends Sound value c where
  inside : ∀ v ∈ c.found, ∃ step ∈ steps, ∃ rest, v.path = step :: rest

def Clean (c : Checked α) : Prop := ∀ x, c.value = some x → c.found = []

inductive Plain : Checked α → Prop
  | ok (x : α) : Plain (.ok x)
  | fail {reason : Reason} (specific : reason ≠ .unspecified) : Plain (.fail reason)

theorem sound_ok (value : Value) (x : α) : Sound value (.ok x) where
  blamed := by rintro ⟨⟩
  specific := by rintro _ ⟨⟩
  located := by rintro _ ⟨⟩
  apart _ := .nil

private theorem sound_single {value : Value} {pointer : Pointer} {reason : Reason} (specific : reason ≠ .unspecified)
    (located : Located value pointer) : Sound value (⟨none, [⟨pointer, reason⟩]⟩ : Checked α) where
  blamed := by rintro - ⟨⟩
  specific := by simpa using specific
  located := by simpa using located
  apart _ := List.nodup_singleton pointer

theorem within_ok (value : Value) (steps : List String) (x : α) : Within value steps (.ok x) where
  toSound := sound_ok value x
  inside := by rintro _ ⟨⟩

theorem within_failAt {value : Value} {step : String} {reason : Reason} (specific : reason ≠ .unspecified)
    (located : Located value [step]) : Within value [step] (.failAt step reason : Checked α) where
  toSound := sound_single specific located
  inside := by
    intro v member
    obtain rfl := List.mem_singleton.1 member
    exact ⟨step, List.mem_singleton_self step, [], rfl⟩

namespace Plain
variable {c : Checked α}

theorem clean (plain : Plain c) : Clean c := by
  intro x given
  cases plain with
  | ok => rfl
  | fail => cases given

theorem path_eq (plain : Plain c) {v : Violation} (found : v ∈ c.found) : v.path = [] := by
  cases plain with
  | ok => cases found
  | fail =>
    obtain rfl := List.mem_singleton.1 found
    rfl

theorem sound (plain : Plain c) (value : Value) : Sound value c := by
  cases plain with
  | ok x => exact sound_ok value x
  | fail specific => exact sound_single specific (.root value)

theorem andThen {next : α → Checked β} (plain : Plain c) (further : ∀ x, Plain (next x)) : Plain (c.andThen next) := by
  cases plain with
  | ok x => exact further x
  | fail specific => exact .fail specific

theorem ofOption {reason : Reason} (specific : reason ≠ .unspecified) (o : Option α) :
    Plain (Checked.ofOption reason o) := by
  cases o with
  | none => exact .fail specific
  | some x => exact .ok x

end Plain

theorem Clean.under {c : Checked α} (clean : Clean c) (step : String) : Clean (c.under step) := by
  intro x given
  rw [Checked.under, clean x given, List.map_nil]

theorem Clean.both {f : α → β → γ} {a : Checked α} {b : Checked β} (left : Clean a) (right : Clean b) :
    Clean (.both f a b) := by
  intro z given
  obtain ⟨_ | x, found_left⟩ := a
  · cases given
  · obtain ⟨_ | y, found_right⟩ := b
    · cases given
    · rw [Checked.both, left x rfl, right y rfl, List.append_nil]

theorem Sound.under {value child : Value} {step : String} {c : Checked α} (sound : Sound child c)
    (below : value.child? step = some child) : Within value [step] (c.under step) where
  blamed none := mt List.map_eq_nil_iff.1 (sound.blamed none)
  specific := by
    intro v member
    obtain ⟨w, there, rfl⟩ := List.mem_map.1 member
    exact sound.specific w there
  located := by
    intro v member
    obtain ⟨w, there, rfl⟩ := List.mem_map.1 member
    exact .under below (sound.located w there)
  apart distinct := by
    have paths : (c.under step).found.map Violation.path = (c.found.map Violation.path).map (step :: ·) := by
      rw [Checked.under, List.map_map, List.map_map]
      rfl
    rw [paths]
    exact (sound.apart (distinct.child below)).map (List.cons_injective)
  inside := by
    intro v member
    obtain ⟨w, -, rfl⟩ := List.mem_map.1 member
    exact ⟨step, List.mem_singleton_self step, w.path, rfl⟩

theorem Sound.map {value : Value} {c : Checked α} (sound : Sound value c) (f : α → β) : Sound value (c.map f) where
  blamed none := sound.blamed (Option.map_eq_none_iff.1 none)
  specific := sound.specific
  located := sound.located
  apart := sound.apart

theorem Within.map {value : Value} {steps : List String} {c : Checked α} (within : Within value steps c) (f : α → β) :
    Within value steps (c.map f) where
  toSound := within.toSound.map f
  inside := within.inside

theorem Within.mono {value : Value} {steps more : List String} {c : Checked α} (within : Within value steps c)
    (among : ∀ step ∈ steps, step ∈ more) : Within value more c where
  toSound := within.toSound
  inside := by
    intro v found
    obtain ⟨step, known, path⟩ := within.inside v found
    exact ⟨step, among step known, path⟩

theorem Within.both {value : Value} {steps others : List String} {a : Checked α} {b : Checked β} (f : α → β → γ)
    (left : Within value steps a) (right : Within value others b) (different : ∀ step ∈ steps, step ∉ others) :
    Within value (steps ++ others) (.both f a b) where
  blamed none := by
    rw [Checked.both, ne_eq, List.append_eq_nil_iff]
    rintro ⟨nothing_left, nothing_right⟩
    obtain ⟨_ | x, found_left⟩ := a
    · exact left.blamed rfl nothing_left
    · obtain ⟨_ | y, found_right⟩ := b
      · exact right.blamed rfl nothing_right
      · cases none
  specific v member := (List.mem_append.1 member).elim (left.specific v) (right.specific v)
  located v member := (List.mem_append.1 member).elim (left.located v) (right.located v)
  apart distinct := by
    rw [Checked.both, List.map_append]
    refine (left.apart distinct).append (right.apart distinct) ?_
    intro path member_left member_right
    obtain ⟨v, v_found, rfl⟩ := List.mem_map.1 member_left
    obtain ⟨w, w_found, same⟩ := List.mem_map.1 member_right
    obtain ⟨step, known, _, v_path⟩ := left.inside v v_found
    obtain ⟨other, other_known, _, w_path⟩ := right.inside w w_found
    rw [v_path, w_path, List.cons.injEq] at same
    exact different step known (same.1 ▸ other_known)
  inside := by
    intro v member
    rcases List.mem_append.1 member with found | found
    · obtain ⟨step, known, path⟩ := left.inside v found
      exact ⟨step, List.mem_append_left _ known, path⟩
    · obtain ⟨step, known, path⟩ := right.inside v found
      exact ⟨step, List.mem_append_right _ known, path⟩

/-- A check after another one. One of them finds nothing when both are made. -/
theorem Sound.andThen {value : Value} {c : Checked α} {next : α → Checked β} (first : Sound value c)
    (further : ∀ x, c.value = some x → Sound value (next x))
    (either : ∀ x, c.value = some x → c.found = [] ∨ (next x).found = []) : Sound value (c.andThen next) := by
  obtain ⟨_ | x, found⟩ := c
  · exact ⟨fun _ => first.blamed rfl, first.specific, first.located, first.apart⟩
  · have second := further x rfl
    rcases either x rfl with nothing | nothing
    · obtain rfl : found = [] := nothing
      exact second
    · have all : found ++ (next x).found = found := by rw [nothing, List.append_nil]
      have opened : Checked.andThen ⟨some x, found⟩ next = ⟨(next x).value, found⟩ := congrArg (Checked.mk _) all
      rw [opened]
      exact ⟨fun none => absurd nothing (second.blamed none), first.specific, first.located, first.apart⟩

theorem Within.andThen {value : Value} {steps : List String} {c : Checked α} {next : α → Checked β}
    (first : Within value steps c) (further : ∀ x, c.value = some x → Within value steps (next x))
    (either : ∀ x, c.value = some x → c.found = [] ∨ (next x).found = []) : Within value steps (c.andThen next) where
  toSound := first.toSound.andThen (fun x given => (further x given).toSound) either
  inside := by
    obtain ⟨_ | x, found⟩ := c
    · exact first.inside
    · intro v member
      exact (List.mem_append.1 member).elim (first.inside v) ((further x rfl).inside v)

private theorem lookup_of_mem {key : String} {value : Value} {fields : Fields} (member : (key, value) ∈ fields) :
    ∃ first, fields.lookup key = some first := by
  cases found : fields.lookup key with
  | some first => exact ⟨first, rfl⟩
  | none =>
    have absent := List.lookup_eq_none_iff.1 found _ member
    simp at absent

theorem Within.noting {fields : Fields} {steps allowed : List String} {c : Checked α}
    (within : Within (.object fields) steps c) (known : ∀ step ∈ steps, step ∈ allowed) :
    Sound (.object fields) (c.noting (Document.foreign allowed fields)) := by
  have foreign {v : Violation} (found : v ∈ Document.foreign allowed fields) :
      ∃ key value, (key, value) ∈ fields ∧ key ∉ allowed ∧ v = ⟨[key], .unexpectedKey⟩ := by
    obtain ⟨⟨key, value⟩, kept, rfl⟩ := List.mem_map.1 found
    obtain ⟨member, outside⟩ := List.mem_filter.1 kept
    exact ⟨key, value, member, by simpa using outside, rfl⟩
  refine ⟨?_, ?_, ?_, ?_⟩
  · intro none nothing
    exact within.blamed none (List.append_eq_nil_iff.1 nothing).2
  · intro v member
    rcases List.mem_append.1 member with found | found
    · obtain ⟨_, _, -, -, rfl⟩ := foreign found
      rintro ⟨⟩
    · exact within.specific v found
  · intro v member
    rcases List.mem_append.1 member with found | found
    · obtain ⟨key, _, there, -, rfl⟩ := foreign found
      obtain ⟨first, held⟩ := lookup_of_mem there
      exact .under held (.root first)
    · exact within.located v found
  · intro distinct
    rw [Checked.noting, List.map_append]
    refine List.Nodup.append ?_ (within.apart distinct) ?_
    · have paths : (Document.foreign allowed fields).map Violation.path =
          ((fields.filter fun field => !allowed.contains field.1).map Prod.fst).map fun key => [key] := by
        rw [Document.foreign, List.map_map, List.map_map]
        rfl
      rw [paths]
      refine List.Nodup.map (fun _ _ same => List.head_eq_of_cons_eq same) ?_
      exact distinct.keys.sublist (List.filter_sublist.map Prod.fst)
    · intro path member_foreign member_within
      obtain ⟨v, v_found, rfl⟩ := List.mem_map.1 member_foreign
      obtain ⟨w, w_found, same⟩ := List.mem_map.1 member_within
      obtain ⟨key, _, -, outside, rfl⟩ := foreign v_found
      obtain ⟨step, inside, rest, path⟩ := within.inside w w_found
      rw [path, List.cons.injEq] at same
      exact outside (same.1 ▸ known step inside)

theorem within_required {fields : Fields} {key : String} {check : Value → Checked α}
    (each : ∀ child, fields.lookup key = some child → Sound child (check child)) :
    Within (.object fields) [key] (Document.required fields key check) := by
  unfold Document.required
  split
  · rename_i child held
    exact (each child held).under held
  · rename_i missing
    refine within_failAt (by rintro ⟨⟩) ?_
    change Located _ ([] ++ [key])
    exact .absent (Value.at?_nil _) missing

theorem within_optional {fields : Fields} {key : String} {standard : α} {check : Value → Checked α}
    (each : ∀ child, Sound child (check child)) :
    Within (.object fields) [key] (Document.optional fields key standard check) := by
  unfold Document.optional
  split
  · rename_i child held
    exact (each child).under held
  · exact within_ok _ _ standard

theorem clean_required {fields : Fields} {key : String} {check : Value → Checked α} (each : ∀ child, Clean (check child)) :
    Clean (Document.required fields key check) := by
  unfold Document.required
  split
  · exact (each _).under key
  · rintro _ ⟨⟩

theorem lookup_of_required {fields : Fields} {key : String} {check : Value → Checked α} {x : α}
    (given : (Document.required fields key check).value = some x) : ∃ child, fields.lookup key = some child := by
  unfold Document.required at given
  split at given
  · rename_i child held
    exact ⟨child, held⟩
  · cases given

end Screener.Filter
