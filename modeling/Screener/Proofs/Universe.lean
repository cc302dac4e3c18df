import Screener.Proofs.Text.Upper
import Screener.Universe

/-! Lists of symbols in writing. A list that is read has a symbol for each of its tokens, none of them blank and none of
them twice, and each symbol is in the form in which symbols are looked up. -/
namespace Screener.Universe

/-- No symbol is blank or stands twice, and each is in the form in which it is looked up. -/
structure Proper (symbols : List String) : Prop where
  named : ∀ symbol ∈ symbols, symbol ≠ ""
  standard : ∀ symbol ∈ symbols, standardForm symbol = symbol
  distinct : symbols.Nodup

private theorem standardForm_standardForm (symbol : String) :
    standardForm (standardForm symbol) = standardForm symbol := by
  rw [standardForm, standardForm, Text.trim_upper_trim, Text.upper_upper]

theorem standardForm_eq_empty_iff {symbol : String} : standardForm symbol = "" ↔ Text.trim symbol = "" :=
  Text.upper_eq_empty_iff

def tokens (text : String) : List String := (text.toList.splitOn ',').map String.ofList

private theorem readTokens_cons (seen : List String) (token : List Char) (rest : List (List Char)) :
    readTokens seen (token :: rest) =
      if Text.trim (String.ofList token) = "" then .error .emptyToken
      else if standardForm (String.ofList token) ∈ seen then .error (.duplicate (standardForm (String.ofList token)))
      else readTokens (seen ++ [standardForm (String.ofList token)]) rest := by
  have trimmed : String.ofList (Text.trimChars token) = Text.trim (String.ofList token) := by
    rw [Text.trim, String.toList_ofList]
  simp only [readTokens, trimmed, String.isEmpty_iff, standardForm]
  congr

theorem readTokens_eq_ok_iff {seen symbols : List String} {tokens : List (List Char)} (distinct : seen.Nodup) :
    readTokens seen tokens = .ok symbols ↔
      symbols = seen ++ tokens.map (fun token => standardForm (String.ofList token)) ∧
        (∀ token ∈ tokens, Text.trim (String.ofList token) ≠ "") ∧ symbols.Nodup := by
  induction tokens generalizing seen with
  | nil =>
    rw [readTokens, Except.ok.injEq, List.map_nil, List.append_nil]
    exact ⟨fun same => ⟨same.symm, fun _ member => (nomatch member), same ▸ distinct⟩, fun found => found.1.symm⟩
  | cons token rest ih =>
    rw [readTokens_cons, List.forall_mem_cons, List.map_cons]
    by_cases blank : Text.trim (String.ofList token) = ""
    · rw [if_pos blank]
      exact ⟨fun read => (nomatch read), fun found => absurd blank found.2.1.1⟩
    rw [if_neg blank]
    by_cases twice : standardForm (String.ofList token) ∈ seen
    · rw [if_pos twice]
      refine ⟨fun read => (nomatch read), fun ⟨same, _, apart⟩ => ?_⟩
      exact absurd rfl ((List.nodup_append.1 (same ▸ apart)).2.2 _ twice _ List.mem_cons_self)
    · have longer : (seen ++ [standardForm (String.ofList token)]).Nodup :=
        (List.perm_append_singleton _ _).nodup_iff.2 (List.nodup_cons.2 ⟨twice, distinct⟩)
      rw [if_neg twice, ih longer, List.append_assoc, List.singleton_append]
      simp only [blank, ne_eq, not_false_eq_true, true_and]

theorem ofText_eq_ok_iff {text : String} {symbols : List String} : ofText text = .ok symbols ↔
    symbols = (tokens text).map standardForm ∧ (∀ token ∈ tokens text, Text.trim token ≠ "") ∧ symbols.Nodup := by
  rw [ofText, readTokens_eq_ok_iff List.nodup_nil, List.nil_append, tokens, List.map_map, List.forall_mem_map]
  rfl

theorem proper_of_ofText {text : String} {symbols : List String} (read : ofText text = .ok symbols) : Proper symbols := by
  obtain ⟨rfl, solid, distinct⟩ := ofText_eq_ok_iff.1 read
  refine ⟨fun symbol inside => ?_, fun symbol inside => ?_, distinct⟩
  · obtain ⟨token, listed, rfl⟩ := List.mem_map.1 inside
    exact fun blank => solid token listed (standardForm_eq_empty_iff.1 blank)
  · obtain ⟨token, -, rfl⟩ := List.mem_map.1 inside
    exact standardForm_standardForm token

end Screener.Universe
