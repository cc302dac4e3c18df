import Screener.Proofs.Dictionary
import Screener.Scan.Report

/-! What a match is written as. Its further columns stand next to the keys of its own; a column that is named like one of
those is left out, so no key is written twice. -/
namespace Screener.Scan
open Evaluation (Verdict)
open Json (Value)

/-- What is written of a number. There is none for what is not finite. -/
inductive IsWritten (x : Float) : Value → Prop
  | number : x.isFinite → IsWritten x (.number (.double x))
  | missing : x.isFinite = false → IsWritten x .null

/-- What is written under a key for a row at a position of a symbol, and for what became of the conditions there. -/
inductive Stands (symbol : String) (index : Nat) (row : Bar) (verdict : Option Verdict) : String → Value → Prop
  | symbol : Stands symbol index row verdict "symbol" (.text symbol)
  | date : Stands symbol index row verdict "date" (.text row.date.text)
  | index : Stands symbol index row verdict "index" (.ofNat index)
  | opening {value : Value} : IsWritten row.opening value → Stands symbol index row verdict "open" value
  | high {value : Value} : IsWritten row.high value → Stands symbol index row verdict "high" value
  | low {value : Value} : IsWritten row.low value → Stands symbol index row verdict "low" value
  | close {value : Value} : IsWritten row.close value → Stands symbol index row verdict "close" value
  | volume {value : Value} : IsWritten row.volume value → Stands symbol index row verdict "volume" value
  | explanation {given : Verdict} : verdict = some given →
    Stands symbol index row verdict "explanation" (verdictJson given)
  | extra {name : String} {x : Float} {value : Value} : row.extra.get? name = some x → Bar.isStandard name = false →
    Bar.isReserved name = false → IsWritten x value → Stands symbol index row verdict name value

theorem isWritten_iff {x : Float} {value : Value} : IsWritten x value ↔ value = .ofFloat x := by
  unfold Value.ofFloat
  constructor
  · rintro (finite | missing)
    · rw [if_pos finite]
    · rw [if_neg (Bool.eq_false_iff.1 missing)]
  · rintro rfl
    split
    · rename_i finite
      exact .number finite
    · rename_i missing
      exact .missing (Bool.eq_false_iff.2 missing)

theorem isTaken_eq_false_iff {name : String} :
    Bar.isTaken name = false ↔ Bar.isStandard name = false ∧ Bar.isReserved name = false := Bool.or_eq_false_iff

def ownKeys : List String := ["symbol", "date", "index", "open", "high", "low", "close", "volume"]

variable (symbol : String) (index : Nat) (row : Bar) (verdict : Option Verdict)

private theorem keys_eq : (Match.ofBar symbol index row verdict).fields.map Prod.fst =
    ownKeys ++ (row.extra.restrict fun name => !Bar.isTaken name).names ++
      if verdict.isSome then ["explanation"] else [] := by
  cases verdict <;> simp [Match.fields, Match.ofBar, Dictionary.names, ownKeys, Function.comp_def]

private theorem not_isTaken_of_mem {name : String}
    (member : name ∈ (row.extra.restrict fun name => !Bar.isTaken name).names) : Bar.isTaken name = false := by
  obtain ⟨entry, inside, rfl⟩ := List.mem_map.1 member
  simpa using (List.mem_filter.1 inside).2

private theorem nodup_fields : ((Match.ofBar symbol index row verdict).fields.map Prod.fst).Nodup := by
  have own_taken : ∀ name ∈ ownKeys, Bar.isTaken name := by decide
  have apart : ∀ name ∈ ownKeys, name ∉ (row.extra.restrict fun name => !Bar.isTaken name).names :=
    fun name own further => Bool.false_ne_true ((not_isTaken_of_mem row further).symm.trans (own_taken name own))
  rw [keys_eq]
  refine List.nodup_append'.2 ⟨List.nodup_append'.2 ⟨by decide, Dictionary.nodup_names _, apart⟩, ?_, ?_⟩
  · cases verdict <;> simp
  · intro name before last
    obtain rfl : name = "explanation" := by cases verdict <;> simp_all
    rcases List.mem_append.1 before with own | further
    · revert own
      decide
    · exact absurd (not_isTaken_of_mem row further) (by decide)

theorem mem_fields_iff {key : String} {value : Value} :
    (key, value) ∈ (Match.ofBar symbol index row verdict).fields ↔ Stands symbol index row verdict key value := by
  constructor
  · intro member
    rcases List.mem_append.1 member with member | last
    · rcases List.mem_append.1 member with own | further
      · simp only [List.mem_cons, List.not_mem_nil, or_false, Prod.mk.injEq] at own
        rcases own with ⟨rfl, rfl⟩ | ⟨rfl, rfl⟩ | ⟨rfl, rfl⟩ | ⟨rfl, rfl⟩ | ⟨rfl, rfl⟩ | ⟨rfl, rfl⟩ | ⟨rfl, rfl⟩ | ⟨rfl, rfl⟩
        · exact .symbol
        · exact .date
        · exact .index
        · exact .opening (isWritten_iff.2 rfl)
        · exact .high (isWritten_iff.2 rfl)
        · exact .low (isWritten_iff.2 rfl)
        · exact .close (isWritten_iff.2 rfl)
        · exact .volume (isWritten_iff.2 rfl)
      · obtain ⟨⟨name, x⟩, kept, same⟩ := List.mem_map.1 further
        cases same
        obtain ⟨there, free⟩ := List.mem_filter.1 kept
        obtain ⟨free, unreserved⟩ := isTaken_eq_false_iff.1 (by simpa using free)
        exact .extra (row.extra.get?_eq_some_iff.2 there) free unreserved (isWritten_iff.2 rfl)
    · cases verdict with
      | none => cases last
      | some given =>
        cases List.mem_singleton.1 last
        exact .explanation rfl
  · intro stands
    refine List.mem_append.2 ?_
    cases stands with
    | explanation given =>
      subst given
      exact .inr List.mem_cons_self
    | extra there free unreserved written =>
      rename_i x
      obtain rfl := isWritten_iff.1 written
      have kept : (key, x) ∈ (row.extra.restrict fun name => !Bar.isTaken name).entries :=
        List.mem_filter.2 ⟨row.extra.get?_eq_some_iff.1 there, by simp [isTaken_eq_false_iff.2 ⟨free, unreserved⟩]⟩
      exact .inl (List.mem_append_right _ (List.mem_map.2 ⟨_, kept, rfl⟩))
    | symbol => exact .inl (List.mem_append_left _ (by simp [Match.ofBar]))
    | date => exact .inl (List.mem_append_left _ (by simp [Match.ofBar]))
    | index => exact .inl (List.mem_append_left _ (by simp [Match.ofBar]))
    | opening written => exact .inl (List.mem_append_left _ (by simp [Match.ofBar, isWritten_iff.1 written]))
    | high written => exact .inl (List.mem_append_left _ (by simp [Match.ofBar, isWritten_iff.1 written]))
    | low written => exact .inl (List.mem_append_left _ (by simp [Match.ofBar, isWritten_iff.1 written]))
    | close written => exact .inl (List.mem_append_left _ (by simp [Match.ofBar, isWritten_iff.1 written]))
    | volume written => exact .inl (List.mem_append_left _ (by simp [Match.ofBar, isWritten_iff.1 written]))

private theorem attached_of_stands {symbol : String} {index : Nat} {row : Bar} {verdict : Option Verdict}
    {value : Value} (stands : Stands symbol index row verdict "explanation" value) : ∃ given, verdict = some given := by
  generalize same : "explanation" = key at stands
  cases stands with
  | explanation given => exact ⟨_, given⟩
  | extra _ _ unreserved _ =>
    subst same
    cases unreserved
  | _ => simp at same

/-- No key stands twice in a match. Under its own keys there are its own values, under the name of a further column that
is none of those the value of that column, and there is an explanation exactly if one was attached. -/
theorem keys_distinct_and_own :
    let fields := (Match.ofBar symbol index row verdict).fields
    (fields.map Prod.fst).Nodup ∧
      (∀ key value, fields.lookup key = some value ↔ Stands symbol index row verdict key value) ∧
      (fields.lookup "explanation").isSome = verdict.isSome := by
  have distinct := nodup_fields symbol index row verdict
  have lookup_iff (key : String) (value : Value) :
      (Match.ofBar symbol index row verdict).fields.lookup key = some value ↔ Stands symbol index row verdict key value :=
    (Json.lookup_eq_some_iff_mem distinct).trans (mem_fields_iff symbol index row verdict)
  refine ⟨distinct, lookup_iff, ?_⟩
  rw [Bool.eq_iff_iff, Option.isSome_iff_exists, Option.isSome_iff_exists]
  constructor
  · rintro ⟨value, there⟩
    exact attached_of_stands ((lookup_iff _ _).1 there)
  · rintro ⟨given, attached⟩
    exact ⟨_, (lookup_iff _ _).2 (.explanation attached)⟩

end Screener.Scan
