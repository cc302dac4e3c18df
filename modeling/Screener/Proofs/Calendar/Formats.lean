import Screener.Proofs.Calendar.Text
import Screener.Proofs.Store.Written

/-! Points in time by formats. A format says item by item what stands in a text. The formats are tried one after the
other, and the first one that the whole text is in gives the point in time. What is written of a point in time is in
one of them, and none of those that are tried before makes something else of it. -/
namespace Screener.Calendar
open Screener.Text

inductive Part where
  | month
  | day
  | hour
  | minute
  | second

inductive Item where
  | year
  /-- A number of one or two digits. -/
  | part (place : Part)
  /-- As many blanks as there are; there need be none. -/
  | blanks
  | mark (c : Char)

abbrev Format := List Item

structure Numbers where
  year : Int := 0
  month : Nat := 0
  day : Nat := 0
  hour : Nat := 0
  minute : Nat := 0
  second : Nat := 0

namespace Numbers

def put (n : Numbers) (k : Nat) : Part → Numbers
  | .month => { n with month := k }
  | .day => { n with day := k }
  | .hour => { n with hour := k }
  | .minute => { n with minute := k }
  | .second => { n with second := k }

def timestamp? (n : Numbers) : Option Timestamp := do
  return ⟨← Date.of? n.year n.month n.day, ← Clock.of? n.hour n.minute n.second⟩

private theorem timestamp?_eq (n : Numbers) : n.timestamp? =
    (Clock.of? n.hour n.minute n.second).bind fun c => (Date.of? n.year n.month n.day).map (⟨·, c⟩) := by
  unfold timestamp?
  cases Date.of? n.year n.month n.day <;> cases Clock.of? n.hour n.minute n.second <;> rfl

end Numbers

def Item.read (n : Numbers) (cs : List Char) : Item → Option (Numbers × List Char)
  | .year => (yearOf cs).map fun (k, rest) => ({ n with year := k }, rest)
  | .part place => (count 2 cs).map fun (k, rest) => (n.put k place, rest)
  | .blanks => some (n, skipBlanks cs)
  | .mark c => (after c cs).map (n, ·)

namespace Format

def readItems (n : Numbers) (cs : List Char) : Format → Option (Numbers × List Char)
  | [] => some (n, cs)
  | item :: rest => (item.read n cs).bind fun (n, cs) => readItems n cs rest

def finish : Numbers × List Char → Option Timestamp
  | (n, []) => n.timestamp?
  | _ => none

def read? (format : Format) (cs : List Char) : Option Timestamp := (readItems {} cs format).bind finish

def firstRead? (cs : List Char) : List Format → Option Timestamp
  | [] => none
  | format :: others => (format.read? cs).or (firstRead? cs others)

def days : Format := [.year, .mark '-', .part .month, .mark '-', .part .day]

def minutes : Format := [.part .hour, .mark ':', .part .minute]

def seconds : Format := minutes ++ [.mark ':', .part .second]

/-- The formats of points in time in the order in which they are tried. -/
def inOrder : List Format :=
  [days ++ .blanks :: seconds, days ++ .mark 'T' :: seconds, days ++ .blanks :: minutes, days ++ .mark 'T' :: minutes, days]

section
variable (n : Numbers) (cs : List Char) (format : Format)

theorem readItems_nil : readItems n cs [] = some (n, cs) := rfl

private theorem readItems_year : readItems n cs (.year :: format) =
    (yearOf cs).bind fun read => readItems { n with year := read.1 } read.2 format := Option.bind_map

private theorem readItems_part (place : Part) : readItems n cs (.part place :: format) =
    (count 2 cs).bind fun read => readItems (n.put read.1 place) read.2 format := Option.bind_map

private theorem readItems_mark (c : Char) : readItems n cs (.mark c :: format) =
    (after c cs).bind fun rest => readItems n rest format := Option.bind_map

private theorem readItems_blanks (place : Part) :
    readItems n cs (.blanks :: .part place :: format) = readItems n cs (.part place :: format) := by
  have same : count 2 (skipBlanks cs) = count 2 cs := by
    rw [count, count, skipBlanks, skipBlanks, List.dropWhile_idempotent]
  rw [readItems_part, ← same]
  exact readItems_part n (skipBlanks cs) format place

private theorem readItems_append (back : Format) : readItems n cs (format ++ back) =
    (readItems n cs format).bind fun read => readItems read.1 read.2 back := by
  induction format generalizing n cs with
  | nil => rfl
  | cons item front ih =>
    rw [List.cons_append, readItems, readItems, Option.bind_assoc]
    exact congrArg _ (funext fun read => ih read.1 read.2)

end

private theorem dateOf_eq (cs : List Char) : dateOf cs =
    (readItems {} cs days).bind fun read => (Date.of? read.1.year read.1.month read.1.day).map (·, read.2) := by
  unfold dateOf days
  simp only [readItems_year, readItems_part, readItems_mark, readItems_nil, Option.bind_assoc, Option.bind_some,
    Option.map_eq_bind]
  rfl

private theorem of_readItems_days {cs rest : List Char} {n : Numbers} (read : readItems {} cs days = some (n, rest)) :
    n = { year := n.year, month := n.month, day := n.day } := by
  unfold days at read
  simp only [readItems_year, readItems_part, readItems_mark, readItems_nil, Option.bind_eq_some_iff] at read
  obtain ⟨_, -, _, -, _, -, _, -, _, -, same⟩ := read
  cases same
  rfl

section
variable {n : Numbers}

def atClock (n : Numbers) (cs : List Char) : Option Timestamp :=
  (clockOf cs).bind fun c => (Date.of? n.year n.month n.day).map (⟨·, c⟩)

private theorem atClock_eq (unread : n.second = 0) (cs : List Char) :
    atClock n cs = ((readItems n cs seconds).bind finish).or ((readItems n cs minutes).bind finish) := by
  unfold atClock clockOf seconds minutes
  simp only [readItems_part, readItems_mark, readItems_nil, List.cons_append, List.nil_append]
  cases count 2 cs with
  | none => rfl
  | some read =>
    obtain ⟨hour, rest⟩ := read
    simp only [Option.bind_eq_bind, Option.bind_some]
    cases after ':' rest with
    | none => rfl
    | some rest =>
      simp only [Option.bind_some]
      cases count 2 rest with
      | none => rfl
      | some read =>
        obtain ⟨minute, rest⟩ := read
        simp only [Option.bind_some]
        cases rest with
        | nil =>
          have made := ((n.put hour .hour).put minute .minute).timestamp?_eq
          rw [show ((n.put hour .hour).put minute .minute).second = 0 from unread] at made
          exact made.symm
        | cons c rest =>
          have left_over : finish ((n.put hour .hour).put minute .minute, c :: rest) = none := rfl
          rw [left_over, Option.or_none]
          cases after ':' (c :: rest) with
          | none => rfl
          | some rest =>
            simp only [Option.bind_some]
            cases count 2 rest with
            | none => rfl
            | some read =>
              obtain ⟨second, rest⟩ := read
              cases rest with
              | nil => exact (((n.put hour .hour).put minute .minute).put second .second).timestamp?_eq.symm
              | cons => rfl

def afterDay (n : Numbers) : List Char → Option Timestamp
  | [] => n.timestamp?
  | 'T' :: rest => atClock n rest
  | rest => atClock n rest

private theorem afterDay_eq (unread : n.second = 0) (rest : List Char) : afterDay n rest =
    ((readItems n rest (.blanks :: seconds)).bind finish).or
      (((readItems n rest (.mark 'T' :: seconds)).bind finish).or
        (((readItems n rest (.blanks :: minutes)).bind finish).or
          (((readItems n rest (.mark 'T' :: minutes)).bind finish).or (finish (n, rest))))) := by
  rw [seconds, minutes, List.cons_append, readItems_blanks, readItems_blanks, readItems_mark, readItems_mark]
  match rest with
  | [] => rfl
  | c :: rest =>
    have left_over : finish (n, c :: rest) = none := rfl
    by_cases mark : c = 'T'
    · subst mark
      have no_hour (format : Format) : readItems n ('T' :: rest) (.part .hour :: format) = none := rfl
      have marked : after 'T' ('T' :: rest) = some rest := rfl
      rw [no_hour, no_hour, marked, left_over, Option.bind_none, Option.none_or, Option.none_or, Option.or_none]
      exact atClock_eq unread rest
    · have unmarked : after 'T' (c :: rest) = none := if_neg mark
      have other : afterDay n (c :: rest) = atClock n (c :: rest) := by
        unfold afterDay
        split
        · contradiction
        · simp_all
        · rfl
      simp only [other, unmarked, left_over, Option.bind_none, Option.none_or, Option.or_none]
      exact atClock_eq unread (c :: rest)

end

private theorem ofText?_eq (text : String) : Timestamp.ofText? text = firstRead? (trimChars text.toList) inOrder := by
  unfold Timestamp.ofText?
  generalize trimChars text.toList = cs
  simp only [inOrder, firstRead?, read?, readItems_append, Option.bind_assoc, Option.or_none]
  rw [dateOf_eq]
  cases read : readItems {} cs days with
  | none => rfl
  | some found =>
    obtain ⟨n, rest⟩ := found
    have day := of_readItems_days read
    have midnight : Clock.of? n.hour n.minute n.second = some .midnight := by
      rw [day]
      rfl
    have unread : n.second = 0 := by rw [day]
    refine .trans ?_ (afterDay_eq unread rest)
    simp only [Option.bind_some]
    unfold afterDay atClock
    rw [n.timestamp?_eq, midnight]
    cases Date.of? n.year n.month n.day with
    | none =>
      have nowhere (cs : List Char) : ((clockOf cs).bind fun _ => none) = (none : Option Timestamp) :=
        Option.bind_fun_none _
      simp only [Option.map_none, nowhere]
      split <;> rfl
    | some date =>
      simp only [Option.map_eq_bind]
      rfl

end Format

/-- The reader tries the formats in order, and whatever point in time it gives for a text, it gives the same for what is
written of that point in time. No other point in time is written that way, so two rows have one key only if they are
those of one symbol and one point in time. -/
theorem text_identifies :
    (∀ text, Timestamp.ofText? text = Format.firstRead? (trimChars text.toList) Format.inOrder) ∧
      (∀ text t, Timestamp.ofText? text = some t → Timestamp.ofText? t.text = some t) ∧
      (∀ a b : Timestamp, Timestamp.ofText? a.text = some a ∧ (a.text = b.text ↔ a = b)) ∧
      ∀ (a b : Bar) (row row' : Row), Store.rowOf a = .ok row → Store.rowOf b = .ok row' →
        (Store.sameKey row row' ↔ a.symbol = b.symbol ∧ a.date = b.date) := by
  refine ⟨Format.ofText?_eq, fun _ t _ => t.ofText?_text, fun a b => ⟨a.ofText?_text, Timestamp.text_inj⟩, ?_⟩
  intro a b row row' made made'
  obtain ⟨-, rfl⟩ := Store.rowOf_eq_ok_iff.1 made
  obtain ⟨-, rfl⟩ := Store.rowOf_eq_ok_iff.1 made'
  rw [Store.sameKey_rowFor, Bar.isFor_iff, eq_comm (a := b.symbol), eq_comm (a := b.date)]

namespace Sample

def newYearsEve (second : Nat) (range : second ≤ 60) : Timestamp :=
  ⟨⟨-1, 12, 31, by decide, by decide, by decide⟩, { Clock.endOfDay with second, second_range := range }⟩

def closing (second : Nat) (range : second ≤ 60) : Bar := ⟨"A", newYearsEve second range, 1, 2, 0.5, 1.5, 10, .empty⟩

end Sample

open Screener.Calendar.Sample in
theorem text_identifies_sample :
    (newYearsEve 60 (by decide)).text = "-0001-12-31 23:59:60" ∧
      Timestamp.ofText? "-1-12-3123:59:60" = some (newYearsEve 60 (by decide)) ∧
      Timestamp.ofText? "-0001-12-31 23:59:60" = some (newYearsEve 60 (by decide)) ∧
      ∃ row row', Store.rowOf (closing 59 (by decide)) = .ok row ∧ Store.rowOf (closing 60 (by decide)) = .ok row' ∧
        Store.sameKey row row' = false := by
  have storable (second : Nat) (range : second ≤ 60) :
      Store.rowOf (closing second range) = .ok (Store.rowFor (closing second range)) :=
    Store.rowOf_eq_ok_iff.2 ⟨(by decide : ∀ x ∈ [(1 : Float), 2, 0.5, 1.5, 10], x.isNaN = false), rfl⟩
  obtain ⟨-, again, -, keys⟩ := text_identifies
  have text : (newYearsEve 60 (by decide)).text = "-0001-12-31 23:59:60" := by decide
  have read : Timestamp.ofText? "-1-12-3123:59:60" = some (newYearsEve 60 (by decide)) := by decide
  refine ⟨text, read, text ▸ again _ _ read, _, _, storable 59 (by decide), storable 60 (by decide), ?_⟩
  have later : (closing 59 (by decide)).date ≠ (closing 60 (by decide)).date := by decide
  exact Bool.eq_false_iff.2 fun same => later ((keys _ _ _ _ (storable 59 _) (storable 60 _)).1 same).2

end Screener.Calendar
