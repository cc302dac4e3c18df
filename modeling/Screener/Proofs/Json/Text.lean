import Mathlib.Data.List.TakeWhile
import Mathlib.Data.Nat.Digits.Defs
import Screener.Json.Reader
import Screener.Json.Writer

/-! The one-line text of a document reads back as the document, as far as its numbers do. A reader takes as much of a
text as was written for it, whatever follows; only a number ends where no further character of a number comes. -/
namespace Screener.Json

private theorem hexValue_hexDigit {n : Nat} (digit : n < 16) : hexValue (hexDigit n) = some n := by
  have each : ∀ n < 16, hexValue (hexDigit n) = some n := by decide
  exact each n digit

private theorem eq_ofNat {c : Char} {n : Nat} (code : c.toNat = n) : c = Char.ofNat n := by
  rw [← code, Char.ofNat_toNat]

private theorem unitOf_control {c : Char} (control : c.toNat < 32) :
    unitOf '0' '0' (hexDigit (c.toNat / 16)) (hexDigit c.toNat) = some c.toNat := by
  have zero : hexValue '0' = some 0 := by decide
  have low : hexValue (hexDigit c.toNat) = some (c.toNat % 16) := by
    have same : hexDigit c.toNat = hexDigit (c.toNat % 16) := by simp [hexDigit]
    rw [same, hexValue_hexDigit (by omega)]
  have value : c.toNat / 16 * 16 + c.toNat % 16 = c.toNat := by omega
  simp [unitOf, zero, low, hexValue_hexDigit (show c.toNat / 16 < 16 by omega), value]

private theorem quotedTail_escape (c : Char) (rest : List Char) :
    quotedTail (escape c ++ rest) = before c (quotedTail rest) := by
  unfold escape
  by_cases quote : c = '"'
  · subst quote
    simp [quotedTail, escaped]
  by_cases slash : c = '\\'
  · subst slash
    simp [quotedTail, escaped]
  by_cases line : c = '\n'
  · subst line
    simp [quotedTail, escaped]
  by_cases back : c = '\r'
  · subst back
    simp [quotedTail, escaped]
  by_cases tab : c = '\t'
  · subst tab
    simp [quotedTail, escaped]
  rw [if_neg quote, if_neg slash, if_neg line, if_neg back, if_neg tab]
  by_cases erase : c.toNat = 8
  · simp [quotedTail, escaped, eq_ofNat erase]
  by_cases page : c.toNat = 12
  · simp [quotedTail, escaped, eq_ofNat page]
  rw [if_neg erase, if_neg page]
  by_cases control : c.toNat < 32
  · have low : isLow c.toNat = false := by simp [isLow]; omega
    have high : isHigh c.toNat = false := by simp [isHigh]; omega
    rw [if_pos control]
    simp [quotedTail, unitOf_control control, low, high]
  · rw [if_neg control, List.singleton_append, quotedTail.eq_def]
    split <;> simp_all

private theorem quotedTail_flatMap (cs rest : List Char) :
    quotedTail (cs.flatMap escape ++ '"' :: rest) = some (cs, rest) := by
  induction cs with
  | nil => simp [quotedTail]
  | cons c others ih => rw [List.flatMap_cons, List.append_assoc, quotedTail_escape, ih, before, Option.map_some]

private theorem quotedText_quoted (s : String) (rest : List Char) : quotedText (quoted s ++ rest) = some (s, rest) := by
  have read := quotedTail_flatMap s.toList rest
  simp [quoted, quotedText, read]

def EndsNumber (rest : List Char) : Prop := ∀ c ∈ rest.head?, c.isDigit = false ∧ c ≠ '.' ∧ c ≠ 'e' ∧ c ≠ 'E'

variable {cs rest left : List Char}

namespace EndsNumber

theorem takeWhile (ends : EndsNumber rest) (cs : List Char) :
    (cs ++ rest).takeWhile Char.isDigit = cs.takeWhile Char.isDigit := by
  induction cs with
  | nil =>
    cases rest with
    | nil => rfl
    | cons c more => exact List.takeWhile_cons_of_neg (by simp [(ends c rfl).1])
  | cons c others ih => rw [List.cons_append, List.takeWhile_cons, List.takeWhile_cons, ih]

theorem dropWhile (ends : EndsNumber rest) (cs : List Char) :
    (cs ++ rest).dropWhile Char.isDigit = cs.dropWhile Char.isDigit ++ rest := by
  induction cs with
  | nil =>
    cases rest with
    | nil => rfl
    | cons c more => exact List.dropWhile_cons_of_neg (by simp [(ends c rfl).1])
  | cons c others ih =>
    rw [List.cons_append, List.dropWhile_cons, List.dropWhile_cons, ih]
    split <;> rfl

private theorem wholePart_append (ends : EndsNumber rest) {digits : List Char}
    (read : wholePart cs = some (digits, left)) : wholePart (cs ++ rest) = some (digits, left ++ rest) := by
  cases cs with
  | nil => simp [wholePart] at read
  | cons c others =>
    by_cases zero : c = '0'
    · subst zero
      cases others with
      | nil =>
        obtain ⟨rfl, rfl⟩ : ['0'] = digits ∧ [] = left := by simpa [wholePart] using read
        cases rest with
        | nil => rfl
        | cons c more => simp [wholePart, (ends c rfl).1]
      | cons d more =>
        rw [wholePart] at read
        simp only [List.cons_append, wholePart]
        split at read
        · cases read
        · rename_i other
          cases read
          rw [if_neg other, List.cons_append]
    · have whole (more : List Char) : wholePart (c :: more) =
          if ((c :: more).takeWhile Char.isDigit).isEmpty then none
          else some ((c :: more).takeWhile Char.isDigit, (c :: more).dropWhile Char.isDigit) := by
        rw [wholePart.eq_def]
        split
        · simp_all
        · rfl
      simp only [whole, Option.ite_none_left_eq_some, Option.some.injEq, Prod.mk.injEq] at read
      obtain ⟨some_digits, rfl, rfl⟩ := read
      rw [List.cons_append, whole, ← List.cons_append, takeWhile ends, if_neg some_digits, dropWhile ends]

private theorem fractionPart_append (ends : EndsNumber rest) {digits : Option (List Char)}
    (read : fractionPart cs = some (digits, left)) : fractionPart (cs ++ rest) = some (digits, left ++ rest) := by
  unfold fractionPart at read
  split at read
  · simp only [Option.ite_none_left_eq_some, Option.some.injEq, Prod.mk.injEq] at read
    obtain ⟨some_digits, rfl, rfl⟩ := read
    rw [List.cons_append, fractionPart, takeWhile ends, if_neg some_digits, dropWhile ends]
  · rename_i whole
    cases read
    unfold fractionPart
    split
    · rename_i more shape
      cases cs with
      | nil => exact absurd rfl (ends '.' (by simp_all)).2.1
      | cons c others =>
        exact absurd (congrArg₂ _ (List.cons.inj shape).1 rfl) (whole others)
    · rfl

private theorem signOf_append {negative : Bool} {more : List Char} (nonempty : cs ≠ [])
    (read : Decimal.signOf cs = (negative, more)) : Decimal.signOf (cs ++ rest) = (negative, more ++ rest) := by
  unfold Decimal.signOf at read
  split at read <;> cases read
  · rfl
  · rfl
  · obtain ⟨c, others, rfl⟩ := List.exists_cons_of_ne_nil nonempty
    simp_all [Decimal.signOf]

private theorem exponentPart_append (ends : EndsNumber rest) {power : Option Int}
    (read : exponentPart cs = some (power, left)) : exponentPart (cs ++ rest) = some (power, left ++ rest) := by
  cases cs with
  | nil =>
    cases read
    cases rest with
    | nil => rfl
    | cons c more =>
      have ⟨_, _, small, capital⟩ := ends c rfl
      simp [exponentPart, small, capital]
  | cons c others =>
    by_cases marked : c = 'e' ∨ c = 'E'
    · rw [exponentPart, if_pos marked] at read
      cases signed : Decimal.signOf others with
      | mk negative more =>
        simp only [signed, Option.ite_none_left_eq_some, Option.some.injEq, Prod.mk.injEq] at read
        obtain ⟨some_digits, rfl, rfl⟩ := read
        have nonempty : others ≠ [] := by
          rintro rfl
          cases signed
          simp at some_digits
        rw [List.cons_append, exponentPart, if_pos marked, signOf_append nonempty signed]
        simp only [takeWhile ends, dropWhile ends, if_neg some_digits]
    · rw [exponentPart, if_neg marked] at read
      cases read
      rw [List.cons_append, exponentPart, if_neg marked]

private theorem number_append (ends : EndsNumber rest) {n : Number} (read : number cs = some (n, left)) :
    number (cs ++ rest) = some (n, left ++ rest) := by
  cases cs with
  | nil => simp [number, wholePart] at read
  | cons c others =>
    simp only [number, Option.bind_eq_bind, Option.bind_eq_some_iff, Prod.exists] at read
    obtain ⟨digits, _, whole, fraction, _, after, power, _, last, _, made, same⟩ := read
    cases same
    have whole := wholePart_append ends whole
    have after := fractionPart_append ends after
    have last := exponentPart_append ends last
    by_cases minus : c = '-'
    · subst minus
      simp only at whole made
      simp [number, whole, after, last, made]
    · simp [minus] at whole made
      simp [number, minus, whole, after, last, made]

end EndsNumber

private theorem first_of_number {n : Number} (read : number cs = some (n, left)) :
    ∃ c others, cs = c :: others ∧ (c.isDigit ∨ c = '-') := by
  cases cs with
  | nil => simp [number, wholePart] at read
  | cons c others =>
    refine ⟨c, others, rfl, Decidable.or_iff_not_imp_right.2 fun minus => ?_⟩
    simp only [number, Option.bind_eq_bind, Option.bind_eq_some_iff, Prod.exists] at read
    obtain ⟨digits, _, whole, -⟩ := read
    by_contra other
    simp [minus] at whole
    rw [wholePart.eq_def] at whole
    split at whole <;> simp_all

/-- What is read back from what it writes as. -/
def Number.ReadsBack (n : Number) : Prop := number n.chars = some (n, [])

/-- A value with at most so many brackets open at once, whose numbers read back. -/
inductive Value.Legible : Nat → Value → Prop where
  | null {room : Nat} : Legible room .null
  | boolean {room : Nat} (b : Bool) : Legible room (.boolean b)
  | number {room : Nat} {n : Number} : n.ReadsBack → Legible room (.number n)
  | text {room : Nat} (s : String) : Legible room (.text s)
  | array {room : Nat} {items : List Value} : (∀ item ∈ items, Legible room item) → Legible (room + 1) (.array items)
  | object {room : Nat} {fields : Fields} :
      (∀ field ∈ fields, Legible room field.2) → Legible (room + 1) (.object fields)

def joined {α : Type} (write : α → List Char) : List α → List Char
  | [] => []
  | [x] => write x
  | x :: rest => write x ++ ',' :: joined write rest

def fieldText (field : String × Value) : List Char := quoted field.1 ++ ':' :: field.2.chars

private theorem itemChars_eq_joined (items : List Value) : itemChars items = joined Value.chars items := by
  induction items with
  | nil => rw [itemChars, joined]
  | cons item rest ih =>
    cases rest with
    | nil => rw [itemChars, joined]
    | cons next others => rw [itemChars, joined, ih] <;> simp

private theorem fieldChars_eq_joined (fields : Fields) : fieldChars fields = joined fieldText fields := by
  induction fields with
  | nil => rw [fieldChars, joined]
  | cons field rest ih =>
    cases rest with
    | nil => rw [fieldChars, joined, fieldText]
    | cons next others => rw [fieldChars, joined, ih, fieldText] <;> simp

section
variable {α : Type} {item : Reader α} {write : α → List Char} {xs : List α} {close : Char}

/-- The reader takes exactly what was written, if what comes next is a comma or the closing bracket. -/
def Takes (item : Reader α) (write : α → List Char) (close : Char) (x : α) : Prop :=
  ∀ c rest, c = ',' ∨ c = close → item (write x ++ c :: rest) = some (x, c :: rest)

private theorem separated_joined (closing : isSpace close = false ∧ close ≠ ',') (nonempty : xs ≠ [])
    (takes : ∀ x ∈ xs, Takes item write close x) {fuel : Nat} (enough : xs.length ≤ fuel) (rest : List Char) :
    separated item close fuel (joined write xs ++ close :: rest) = some (xs, rest) := by
  induction xs generalizing fuel with
  | nil => exact absurd rfl nonempty
  | cons x others ih =>
    obtain ⟨fuel, rfl⟩ := Nat.exists_eq_add_of_le' (Nat.one_le_of_lt enough)
    cases others with
    | nil =>
      have read := takes x List.mem_cons_self close rest (.inr rfl)
      have stays : skipSpace (close :: rest) = close :: rest := List.dropWhile_cons_of_neg (by simp [closing.1])
      simp [joined, separated, read, stays, closing.2]
    | cons next more =>
      have read := takes x List.mem_cons_self ',' (joined write (next :: more) ++ close :: rest) (.inl rfl)
      have stays (cs : List Char) : skipSpace (',' :: cs) = ',' :: cs := rfl
      have further := ih (List.cons_ne_nil _ _) (fun y inside => takes y (List.mem_cons_of_mem _ inside))
        (Nat.le_of_succ_le_succ enough)
      simp [joined, separated, read, stays, further]

def Begins (close : Char) (cs : List Char) : Prop := ∃ c rest, cs = c :: rest ∧ isSpace c = false ∧ c ≠ close

private theorem length_le_joined (begins : ∀ x ∈ xs, Begins close (write x)) :
    xs.length ≤ (joined write xs).length := by
  induction xs with
  | nil => exact Nat.zero_le _
  | cons x others ih =>
    obtain ⟨c, rest, shape, -⟩ := begins x List.mem_cons_self
    have behind := ih fun y inside => begins y (List.mem_cons_of_mem _ inside)
    cases others with
    | nil => simp [joined, shape]
    | cons next more =>
      simp only [joined, shape, List.length_append, List.length_cons] at behind ⊢
      omega

private theorem begins_joined {x : α} (begins : Begins close (write x)) (others : List α) :
    Begins close (joined write (x :: others)) := by
  obtain ⟨c, rest, shape, solid⟩ := begins
  cases others with
  | nil => exact ⟨c, rest, shape, solid⟩
  | cons next more => exact ⟨c, rest ++ ',' :: joined write (next :: more), by simp [joined, shape], solid⟩

private theorem bracketed_joined (closing : isSpace close = false ∧ close ≠ ',')
    (begins : ∀ x ∈ xs, Begins close (write x)) (takes : ∀ x ∈ xs, Takes item write close x) (rest : List Char) :
    bracketed item close (joined write xs ++ close :: rest) = some (xs, rest) := by
  cases xs with
  | nil =>
    have stays : skipSpace (close :: rest) = close :: rest := List.dropWhile_cons_of_neg (by simp [closing.1])
    simp [joined, bracketed, stays]
  | cons x others =>
    have enough := length_le_joined begins
    obtain ⟨c, more, shape, solid, opens⟩ := begins_joined (begins x List.mem_cons_self) others
    have stays : skipSpace (c :: (more ++ close :: rest)) = c :: (more ++ close :: rest) :=
      List.dropWhile_cons_of_neg (by simp [solid])
    -- Each thing has a first character at least, so the length of the text is fuel enough for all of them.
    have fuel : (x :: others).length ≤ (joined write (x :: others) ++ close :: rest).length := by
      rw [List.length_append]
      omega
    have read := separated_joined closing (List.cons_ne_nil _ _) takes fuel rest
    rw [shape, List.cons_append] at read ⊢
    simp only [bracketed, stays, if_neg opens]
    exact read

end

private theorem isSpace_of_first {c : Char} (first : c.isDigit ∨ c = '-') : isSpace c = false := by
  refine Bool.eq_false_iff.2 fun space => ?_
  have each : ((c = ' ' ∨ c = '\t') ∨ c = '\n') ∨ c = '\r' := by simpa [isSpace] using space
  rcases each with ((rfl | rfl) | rfl) | rfl <;> revert first <;> decide

private theorem begins_chars {v : Value} {room : Nat} (legible : v.Legible room) : Begins ']' v.chars := by
  cases legible with
  | null => exact ⟨'n', _, by rw [Value.chars]; rfl, by decide, by decide⟩
  | boolean b =>
    cases b with
    | false => exact ⟨'f', _, by rw [Value.chars]; rfl, by decide, by decide⟩
    | true => exact ⟨'t', _, by rw [Value.chars]; rfl, by decide, by decide⟩
  | number reads =>
    obtain ⟨c, rest, shape, first⟩ := first_of_number reads
    refine ⟨c, rest, by rw [Value.chars, shape], isSpace_of_first first, ?_⟩
    rintro rfl
    revert first
    decide
  | text s => exact ⟨'"', _, by rw [Value.chars]; rfl, by decide, by decide⟩
  | array => exact ⟨'[', _, by rw [Value.chars]; rfl, by decide, by decide⟩
  | object => exact ⟨'\x7b', _, by rw [Value.chars]; rfl, by decide, by decide⟩

private theorem value_eq_opened (room : Nat) (cs : List Char) :
    ∃ items fields, value room cs = value.opened items fields (skipSpace cs) := by
  cases room with
  | zero => exact ⟨_, _, rfl⟩
  | succ room => exact ⟨_, _, rfl⟩

private theorem endsNumber_cons {c : Char} (mark : c = ',' ∨ c = ']' ∨ c = '\x7d') (rest : List Char) :
    EndsNumber (c :: rest) := by
  intro d here
  obtain rfl := Option.some.inj here
  rcases mark with rfl | rfl | rfl <;> decide

private theorem field_fieldText {read : Reader Value} {key : String} {v : Value} {rest more : List Char}
    (there : read (v.chars ++ rest) = some (v, more)) :
    field read (fieldText (key, v) ++ rest) = some ((key, v), more) := by
  have name := quotedText_quoted key (':' :: (v.chars ++ rest))
  have first : skipSpace (quoted key ++ ':' :: (v.chars ++ rest)) = quoted key ++ ':' :: (v.chars ++ rest) := rfl
  have colon : skipSpace (':' :: (v.chars ++ rest)) = ':' :: (v.chars ++ rest) := rfl
  simp [field, fieldText, first, name, colon, there]

/-- A value is read up to its end, whatever follows, unless it is a number that could go on. -/
theorem value_chars {v : Value} {room : Nat} (legible : v.Legible room) {rest : List Char} (ends : EndsNumber rest) :
    value room (v.chars ++ rest) = some (v, rest) := by
  induction legible generalizing rest with
  | @null room =>
    obtain ⟨items, fields, opened⟩ := value_eq_opened room (Value.null.chars ++ rest)
    rw [opened, Value.chars]
    rfl
  | @boolean room b =>
    obtain ⟨items, fields, opened⟩ := value_eq_opened room ((Value.boolean b).chars ++ rest)
    rw [opened, Value.chars]
    cases b <;> rfl
  | @number room n reads =>
    obtain ⟨items, fields, opened⟩ := value_eq_opened room ((Value.number n).chars ++ rest)
    have read := ends.number_append reads
    obtain ⟨c, more, shape, first⟩ := first_of_number reads
    have solid := isSpace_of_first first
    have other (d : Char) (mark : ¬(d.isDigit ∨ d = '-')) : c ≠ d := fun same => mark (same ▸ first)
    rw [opened, Value.chars]
    rw [shape] at read ⊢
    rw [List.cons_append] at read ⊢
    rw [skipSpace, List.dropWhile_cons_of_neg (by simp [solid])]
    simp [value.opened, other '[' (by decide), other '\x7b' (by decide), other '"' (by decide), other 'n' (by decide),
      other 't' (by decide), other 'f' (by decide), read]
  | @text room s =>
    obtain ⟨items, fields, opened⟩ := value_eq_opened room ((Value.text s).chars ++ rest)
    have read := quotedText_quoted s rest
    rw [opened, Value.chars]
    exact congrArg (Option.map _) read
  | @array room items legible ih =>
    have takes : ∀ item ∈ items, Takes (value room) Value.chars ']' item :=
      fun item inside c more next => ih item inside (endsNumber_cons (by tauto) more)
    have read := bracketed_joined (by decide) (fun item inside => begins_chars (legible item inside)) takes rest
    rw [Value.chars, itemChars_eq_joined, List.append_assoc]
    exact congrArg (Option.map _) read
  | @object room fields legible ih =>
    have takes : ∀ entry ∈ fields, Takes (field (value room)) fieldText '\x7d' entry :=
      fun entry inside c more next => field_fieldText (ih entry inside (endsNumber_cons (by tauto) more))
    have begins : ∀ entry ∈ fields, Begins '\x7d' (fieldText entry) := fun _ _ => ⟨'"', _, rfl, by decide, by decide⟩
    have read := bracketed_joined (by decide) begins takes rest
    rw [Value.chars, fieldChars_eq_joined, List.append_assoc]
    exact congrArg (Option.map _) read

/-- A document reads back from its text on one line. -/
theorem read_compact {v : Value} (legible : v.Legible mostOpen) : read v.compact = some v := by
  have whole : value mostOpen (v.chars ++ []) = some (v, []) := value_chars legible fun _ there => nomatch there
  rw [List.append_nil] at whole
  rw [read, Value.compact, String.toList_ofList, whole]
  rfl

end Screener.Json
