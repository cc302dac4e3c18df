import Mathlib.Data.List.Induction
import Screener.Proofs.Dictionary
import Screener.Proofs.SavedFilter
import Screener.Proofs.Store.Bars
import Screener.Proofs.Text.Bytes

/-! The saved filters over a run of calls. Whatever was called before, a name stands for the filter that was last saved
under it, unless the filter was deleted since; every call is answered from that and none leaves a trace under a name that
it is not about. -/
namespace Screener.Store

/-- A call about saved filters. -/
inductive FilterCall where
  | save (saved : SavedFilter)
  | load (name : String)
  | list
  | delete (name : String)

namespace FilterCall

def name? : FilterCall → Option String
  | .save saved => some saved.name
  | .load name | .delete name => some name
  | .list => none

/-- What the call leaves under the name, if it leaves a mark there: a filter, or none. -/
def effect? (name : String) : FilterCall → Option (Option SavedFilter)
  | .save saved => if saved.name = name then some (some saved) else none
  | .delete other => if other = name then some none else none
  | .load _ | .list => none

/-- What is saved has an accepted name and a filter out of a document, whose doubles read back. -/
def IsSound : FilterCall → Prop
  | .save saved => (∃ text, SavedFilter.ofExpression text saved.filter = .ok saved) ∧
      (∃ value, Filter.Expression.ofJson value = .ok saved.filter) ∧ saved.filter.ReadsBack
  | _ => True

end FilterCall

/-- The store after a call, its answer left aside. -/
def afterCall (store : Store) : FilterCall → Except Failure Store
  | .save saved => store.save saved
  | .load name => (store.load name).map fun _ => store
  | .list => store.filterNames.map fun _ => store
  | .delete name => (store.delete name).map (·.2)

def afterCalls (store : Store) (calls : List FilterCall) : Except Failure Store := calls.foldlM afterCall store

/-- The filter that was last saved under the name and has not been deleted since. -/
def held? (past : List FilterCall) (name : String) : Option SavedFilter :=
  (past.reverse.findSome? (·.effect? name)).join

variable {store : Store} {past : List FilterCall} {call : FilterCall} {name : String} {saved : SavedFilter}

private theorem held?_append (past : List FilterCall) (call : FilterCall) (name : String) :
    held? (past ++ [call]) name = (call.effect? name).getD (held? past name) := by
  rw [held?, List.reverse_append, List.reverse_singleton, List.singleton_append, List.findSome?_cons]
  cases call.effect? name <;> rfl

private theorem effect?_eq_none (other : call.name? ≠ some name) : call.effect? name = none := by
  cases call with
  | save saved => exact if_neg fun same => other (congrArg some same)
  | delete deleted => exact if_neg fun same => other (congrArg some same)
  | load _ | list => rfl

private theorem held?_of_other (other : call.name? ≠ some name) : held? (past ++ [call]) name = held? past name := by
  rw [held?_append, effect?_eq_none other, Option.getD_none]

private theorem save_mem_of_held? (there : held? past name = some saved) : saved.name = name ∧ .save saved ∈ past := by
  obtain ⟨call, inside, effect⟩ := List.exists_of_findSome?_eq_some (Option.join_eq_some_iff.1 there)
  cases call with
  | save other =>
    obtain ⟨same, left⟩ := Option.ite_none_right_eq_some.1 effect
    obtain rfl := Option.some.inj (Option.some.inj left)
    exact ⟨same, List.mem_reverse.1 inside⟩
  | delete other =>
    obtain ⟨-, left⟩ := Option.ite_none_right_eq_some.1 effect
    cases left
  | load _ | list => cases effect

/-- The store is open and has the text of each filter that is held. -/
structure Keeps (store : Store) (past : List FilterCall) : Prop where
  ready : store.ready
  texts : ∀ name, store.filters.get? name = (held? past name).map (·.filter.text)

theorem ofText_of_sound (sound : (FilterCall.save saved).IsSound) :
    SavedFilter.ofText saved.name saved.filter.text = .ok saved := by
  obtain ⟨⟨text, named⟩, ⟨value, parsed⟩, reads⟩ := sound
  have denotes := (Filter.Checked.toExcept_eq_ok_iff.trans Filter.Document.filter_passes).1 parsed
  obtain ⟨accepted, -⟩ := SavedFilter.ofExpression_eq_ok_iff.1 named
  rw [SavedFilter.ofText_text (Filter.wellFormed_of_read denotes) reads]
  exact SavedFilter.ofExpression_eq_ok_iff.2 ⟨SavedFilter.nameOf_name accepted, rfl⟩

namespace Keeps

theorem load (keeps : store.Keeps past) (sound : ∀ call ∈ past, call.IsSound) (name : String) :
    store.load name = .ok (held? past name) := by
  rw [Store.load, access, if_pos keeps.ready, keeps.texts]
  cases there : held? past name with
  | none => rfl
  | some saved =>
    obtain ⟨rfl, inside⟩ := save_mem_of_held? there
    exact congrArg (Except.map some) (ofText_of_sound (sound _ inside))

theorem contains (keeps : store.Keeps past) (name : String) :
    store.filters.contains name = (held? past name).isSome := by
  rw [Dictionary.contains, keeps.texts, Option.isSome_map]

theorem filterNames (keeps : store.Keeps past) :
    store.filterNames = .ok store.filters.names := if_pos keeps.ready

theorem mem_names_iff (keeps : store.Keeps past) : name ∈ store.filters.names ↔ (held? past name).isSome := by
  rw [Dictionary.mem_names_iff, keeps.contains]

theorem delete (keeps : store.Keeps past) (name : String) :
    store.delete name = .ok ((held? past name).isSome, { store with filters := store.filters.erase name }) := by
  rw [Store.delete, access, if_pos keeps.ready, keeps.contains]

/-- After a further call the table is as the calls say, that one among them. -/
theorem afterCall (keeps : store.Keeps past) (sound : ∀ call ∈ past, call.IsSound) (call : FilterCall) :
    ∃ next, store.afterCall call = .ok next ∧ next.Keeps (past ++ [call]) := by
  cases call with
  | save saved =>
    refine ⟨store.putFilter saved.name saved.filter.text, if_pos keeps.ready, keeps.ready, fun name => ?_⟩
    rw [putFilter, Dictionary.get?_insert, held?_append, keeps.texts]
    by_cases same : name = saved.name
    · rw [if_pos same, FilterCall.effect?, if_pos same.symm]
      rfl
    · rw [if_neg same, FilterCall.effect?, if_neg (Ne.symm same), Option.getD_none]
  | delete deleted =>
    have step : store.afterCall (.delete deleted) = .ok { store with filters := store.filters.erase deleted } := by
      rw [Store.afterCall, keeps.delete]
      rfl
    refine ⟨_, step, keeps.ready, fun name => ?_⟩
    rw [Dictionary.get?_erase, held?_append, keeps.texts]
    by_cases same : name = deleted
    · rw [if_pos same, FilterCall.effect?, if_pos same.symm]
      rfl
    · rw [if_neg same, FilterCall.effect?, if_neg (Ne.symm same), Option.getD_none]
  | load loaded =>
    have step : store.afterCall (.load loaded) = .ok store := by
      rw [Store.afterCall, keeps.load sound]
      rfl
    exact ⟨store, step, keeps.ready, fun name => by rw [held?_append, keeps.texts]; rfl⟩
  | list =>
    have step : store.afterCall .list = .ok store := by
      rw [Store.afterCall, keeps.filterNames]
      rfl
    exact ⟨store, step, keeps.ready, fun name => by rw [held?_append, keeps.texts]; rfl⟩

private theorem exists_afterCalls (past : List FilterCall) (sound : ∀ call ∈ past, call.IsSound) :
    ∃ store, blank.prepared.afterCalls past = .ok store ∧ store.Keeps past := by
  induction past using List.reverseRecOn with
  | nil => exact ⟨blank.prepared, rfl, rfl, fun name => rfl⟩
  | append_singleton earlier call ih =>
    have sound_earlier : ∀ call ∈ earlier, call.IsSound := fun call inside => sound call (List.mem_append_left _ inside)
    obtain ⟨store, run, keeps⟩ := ih sound_earlier
    obtain ⟨next, step, keeps_next⟩ := keeps.afterCall sound_earlier call
    refine ⟨next, ?_, keeps_next⟩
    rw [afterCalls, List.foldlM_append]
    exact bind_eq_ok_iff.2 ⟨store, run, bind_eq_ok_iff.2 ⟨next, step, rfl⟩⟩

end Keeps

/-- After any calls the store is a table of what was last saved under each name and not deleted since: a name is loaded as
that filter, the list has the names that stand for one, ascending by their bytes, and deleting tells whether there was
one. A further call changes nothing under a name that it is not about. -/
theorem filters_follow_calls (past : List FilterCall) (sound : ∀ call ∈ past, call.IsSound) :
    ∃ store, blank.prepared.afterCalls past = .ok store ∧
      (∀ name, store.load name = .ok (held? past name)) ∧
      (∃ names, store.filterNames = .ok names ∧ names.Pairwise (fun a b => Text.bytes a < Text.bytes b) ∧
        ∀ name, name ∈ names ↔ (held? past name).isSome) ∧
      (∀ name, ∃ left, store.delete name = .ok ((held? past name).isSome, left)) ∧
      ∀ call name, call.IsSound → call.name? ≠ some name → ∃ next, store.afterCall call = .ok next ∧
        next.load name = store.load name ∧ next.filters.get? name = store.filters.get? name := by
  obtain ⟨store, run, keeps⟩ := Keeps.exists_afterCalls past sound
  refine ⟨store, run, keeps.load sound, ?_, fun name => ⟨_, keeps.delete name⟩, ?_⟩
  · have ascending := store.filters.names_ascending.imp fun {a b} less => Text.lt_iff_bytes_lt.1 less
    exact ⟨store.filters.names, keeps.filterNames, ascending, fun name => keeps.mem_names_iff⟩
  · intro call name sound_call other
    obtain ⟨next, step, keeps_next⟩ := keeps.afterCall sound call
    have sound_all : ∀ each ∈ past ++ [call], each.IsSound :=
      List.forall_mem_append.2 ⟨sound, List.forall_mem_singleton.2 sound_call⟩
    refine ⟨next, step, ?_, ?_⟩
    · rw [keeps_next.load sound_all, keeps.load sound, held?_of_other other]
    · rw [keeps_next.texts, keeps.texts, held?_of_other other]

namespace Sample
open Screener.Filter (Condition Expression)

def rising : Expression := ⟨.all, [⟨.column "close" .here, .greater, .constant 1.5⟩], by decide⟩

theorem wellFormed_rising : rising.WellFormed := by
  intro c member
  obtain rfl := List.mem_singleton.1 member
  have finite : (1.5 : Float).isFinite = true := by decide
  exact ⟨⟨⟨by decide, by decide, by decide⟩, by decide⟩, finite⟩

theorem readsBack_rising : rising.ReadsBack := by
  intro x member d inside
  simp only [Expression.operands, rising, Condition.operands, List.flatMap_singleton, List.mem_cons,
    List.not_mem_nil, or_false] at member
  rcases member with rfl | rfl
  · cases inside
  · obtain rfl := List.mem_singleton.1 inside
    exact readsBack_carrying "x" ("x", 1.5) List.mem_cons_self (by decide)

private theorem isSound_rising {name : String} (accepted : SavedFilter.nameOf name = .ok name) :
    (FilterCall.save ⟨name, rising⟩).IsSound := by
  have parsed := (Filter.Checked.toExcept_eq_ok_iff.trans Filter.Document.filter_passes).2
    (Filter.filter_reads wellFormed_rising)
  exact ⟨⟨name, SavedFilter.ofExpression_eq_ok_iff.2 ⟨accepted, rfl⟩⟩, ⟨_, parsed⟩, readsBack_rising⟩

end Sample

open Store.Sample (rising isSound_rising)

theorem filters_follow_calls_sample :
    let past : List FilterCall := [.save ⟨"golden", rising⟩, .save ⟨"dip", rising⟩, .list, .delete "golden"]
    (∀ call ∈ past, call.IsSound) ∧ ∃ store, blank.prepared.afterCalls past = .ok store ∧
      store.load "dip" = .ok (some ⟨"dip", rising⟩) ∧ store.load "golden" = .ok none := by
  intro past
  have sound : ∀ call ∈ past, call.IsSound := by
    simp only [past, List.forall_mem_cons]
    exact ⟨isSound_rising rfl, isSound_rising rfl, trivial, trivial, fun _ none => nomatch none⟩
  obtain ⟨store, run, load, -⟩ := filters_follow_calls past sound
  exact ⟨sound, store, run, load "dip", load "golden"⟩

end Screener.Store
