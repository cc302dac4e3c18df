import Screener.Proofs.Text.Trim

/-! Upper case of texts. What a letter is mapped to has no other upper case itself and is not blank, so the upper case of a
text is its own upper case, and a text without blanks around it has none around its upper case either. -/
namespace Screener.Text

def CaseRun.misses (run other : CaseRun) : Bool :=
  Nat.blt (run.image + (run.last - run.first)) other.first || Nat.blt other.last run.image ||
    -- The images may lie between the letters of the other run if only every second one belongs to it.
    (Nat.beq other.step 2 && (Nat.beq run.step 2 || Nat.beq run.first run.last) &&
      Nat.beq ((run.image + other.first) % 2) 1)

def CaseRun.missesSpan (run : CaseRun) (span : Nat × Nat) : Bool :=
  Nat.blt (run.image + (run.last - run.first)) span.1 || Nat.blt span.2 run.image

section
variable {run other : CaseRun} {code : Nat}

theorem CaseRun.of_has (member : run.has code) :
    run.first ≤ code ∧ code ≤ run.last ∧ (code - run.first) % run.step = 0 := by
  simpa [has, and_assoc] using member

theorem CaseRun.has_of_misses (missed : run.misses other) (member : run.has code) :
    other.has (run.image + (code - run.first)) = false := by
  obtain ⟨first, last, step⟩ := of_has member
  refine Bool.eq_false_iff.2 fun found => ?_
  obtain ⟨first', last', step'⟩ := of_has found
  simp only [misses, Bool.or_eq_true, Bool.and_eq_true, Nat.blt_eq, Nat.beq_eq] at missed
  rcases missed with (before | behind) | ⟨⟨second, alone⟩, between⟩
  · omega
  · omega
  · rw [second] at step'
    rcases alone with every | single
    · rw [every] at step
      omega
    · omega

theorem CaseRun.outside_of_missesSpan {span : Nat × Nat} (missed : run.missesSpan span)
    (member : run.has code) : ¬(span.1 ≤ run.image + (code - run.first) ∧ run.image + (code - run.first) ≤ span.2) := by
  obtain ⟨first, last, -⟩ := of_has member
  simp only [missesSpan, Bool.or_eq_true, Nat.blt_eq] at missed
  omega

end

def unlisted (code : Nat) : Bool := upperExpansions.all (·.1 != code) && upperRuns.all (!·.has code)

def blankSpans : List (Nat × Nat) :=
  [(0x09, 0x0D), (0x20, 0x20), (0x85, 0x85), (0xA0, 0xA0), (0x1680, 0x1680), (0x2000, 0x200A), (0x2028, 0x2029),
    (0x202F, 0x202F), (0x205F, 0x205F), (0x3000, 0x3000)]

private theorem upperRuns_miss : upperRuns.all fun run => upperRuns.all run.misses := by decide +kernel

private theorem upperRuns_missExpansions :
    upperRuns.all fun run => upperExpansions.all fun entry => run.missesSpan (entry.1, entry.1) := by
  decide +kernel

private theorem upperRuns_missBlanks : upperRuns.all fun run => blankSpans.all run.missesSpan := by decide +kernel

private theorem upperExpansions_unlisted : upperExpansions.all fun entry => entry.2.all unlisted := by decide +kernel

private theorem upperExpansions_solid :
    upperExpansions.all fun entry => !entry.2.isEmpty && entry.2.all fun code => !isBlank (Char.ofNat code) := by
  decide +kernel

private theorem toNat_ofNat (code : Nat) : (Char.ofNat code).toNat = code ∨ (Char.ofNat code).toNat = 0 := by
  by_cases valid : code.isValidChar
  · rw [Char.ofNat, dif_pos valid]
    exact .inl rfl
  · rw [Char.ofNat, dif_neg valid]
    exact .inr rfl

private theorem unlisted_image {run : CaseRun} (listed : run ∈ upperRuns) {code : Nat} (member : run.has code) :
    unlisted (run.image + (code - run.first)) := by
  rw [unlisted, Bool.and_eq_true, List.all_eq_true, List.all_eq_true]
  refine ⟨fun entry inside => ?_, fun other inside => ?_⟩
  · have missed := List.all_eq_true.1 (List.all_eq_true.1 upperRuns_missExpansions run listed) entry inside
    have outside := CaseRun.outside_of_missesSpan missed member
    rw [bne_iff_ne]
    omega
  · have missed := List.all_eq_true.1 (List.all_eq_true.1 upperRuns_miss run listed) other inside
    rw [CaseRun.has_of_misses missed member]
    rfl

private theorem upperChar_of_unlisted {c : Char} (unlisted_code : unlisted c.toNat) : upperChar c = [c] := by
  rw [unlisted, Bool.and_eq_true, List.all_eq_true, List.all_eq_true] at unlisted_code
  obtain ⟨no_expansion, no_run⟩ := unlisted_code
  have absent : upperExpansions.lookup c.toNat = none :=
    List.lookup_eq_none_iff.2 fun entry inside => by
      have other := no_expansion entry inside
      rw [bne_iff_ne] at other ⊢
      exact other.symm
  have unfound : upperRuns.find? (·.has c.toNat) = none := List.find?_eq_none.2 fun run inside found => by
    have without := no_run run inside
    rw [found] at without
    cases without
  rw [upperChar, mapped, absent, unfound]

private theorem forall_mem_upperChar {c : Char} {P : Char → Prop}
    (expansion : ∀ entry ∈ upperExpansions, ∀ code ∈ entry.2, P (Char.ofNat code))
    (run : ∀ run ∈ upperRuns, run.has c.toNat → P (Char.ofNat (run.image + (c.toNat - run.first))))
    (itself : upperChar c = [c] → P c) : ∀ d ∈ upperChar c, P d := by
  intro d image
  cases found : upperExpansions.lookup c.toNat with
  | some codes =>
    have mapped_to : upperChar c = codes.map Char.ofNat := by rw [upperChar, mapped, found]
    obtain ⟨_, _, split, -⟩ := List.lookup_eq_some_iff.1 found
    obtain ⟨code, inside, rfl⟩ := List.mem_map.1 (mapped_to ▸ image)
    exact expansion (c.toNat, codes) (by simp [split]) code inside
  | none =>
    cases found' : upperRuns.find? (·.has c.toNat) with
    | some r =>
      have mapped_to : upperChar c = [Char.ofNat (r.image + (c.toNat - r.first))] := by
        rw [upperChar, mapped, found, found']
      obtain rfl := List.mem_singleton.1 (mapped_to ▸ image)
      exact run r (List.mem_of_find?_eq_some found') (by simpa using List.find?_some found')
    | none =>
      have mapped_to : upperChar c = [c] := by rw [upperChar, mapped, found, found']
      obtain rfl := List.mem_singleton.1 (mapped_to ▸ image)
      exact itself mapped_to

private theorem upperChar_ofNat {code : Nat} (unlisted_code : unlisted code) :
    upperChar (Char.ofNat code) = [Char.ofNat code] := by
  refine upperChar_of_unlisted ?_
  rcases toNat_ofNat code with same | zero
  · rwa [same]
  · rw [zero]
    decide +kernel

private theorem upperChar_of_image {c d : Char} (image : d ∈ upperChar c) : upperChar d = [d] := by
  refine forall_mem_upperChar (P := fun d => upperChar d = [d]) (fun entry listed code inside => upperChar_ofNat ?_)
    (fun run listed member => upperChar_ofNat (unlisted_image listed member)) id d image
  exact List.all_eq_true.1 (List.all_eq_true.1 upperExpansions_unlisted entry listed) code inside

theorem upper_upper (s : String) : upper (upper s) = upper s := by
  rw [upper, upper, String.toList_ofList, List.flatMap_assoc]
  refine congrArg String.ofList (List.flatMap_congr fun c _ => ?_)
  rw [List.flatMap_congr fun d image => upperChar_of_image image, List.flatMap_singleton']

private theorem isBlank_eq (c : Char) : isBlank c = inSpans blankSpans c := by
  rw [Bool.eq_iff_iff]
  simp [isBlank, inSpans, blankSpans]
  omega

theorem inSpans_of_image {spans : List (Nat × Nat)} (positive : ∀ span ∈ spans, 0 < span.1)
    (expansions : upperExpansions.all fun entry => entry.2.all fun code => !inSpans spans (Char.ofNat code))
    (runs : upperRuns.all fun run => spans.all run.missesSpan) {c d : Char} (outside : inSpans spans c = false)
    (image : d ∈ upperChar c) : inSpans spans d = false := by
  refine forall_mem_upperChar (P := fun d => inSpans spans d = false) (fun entry listed code inside => ?_)
    (fun run listed member => ?_) (fun _ => outside) d image
  · have checked := List.all_eq_true.1 (List.all_eq_true.1 expansions entry listed) code inside
    exact Bool.not_eq_true' _ ▸ checked
  · rw [inSpans, List.any_eq_false]
    intro span inside
    have missed := List.all_eq_true.1 (List.all_eq_true.1 runs run listed) span inside
    have outside := CaseRun.outside_of_missesSpan missed member
    have bound := positive span inside
    rw [Bool.and_eq_true, decide_eq_true_eq, decide_eq_true_eq]
    rcases toNat_ofNat (run.image + (c.toNat - run.first)) with same | zero <;> omega

private theorem isBlank_of_image {c d : Char} (solid : isBlank c = false) (image : d ∈ upperChar c) :
    isBlank d = false := by
  have expansions : upperExpansions.all fun entry => entry.2.all fun code => !inSpans blankSpans (Char.ofNat code) := by
    refine List.all_eq_true.2 fun entry listed => ?_
    have checked := List.all_eq_true.1 upperExpansions_solid entry listed
    rw [Bool.and_eq_true] at checked
    simpa only [isBlank_eq] using checked.2
  rw [isBlank_eq] at solid ⊢
  exact inSpans_of_image (by decide) expansions upperRuns_missBlanks solid image

private theorem upperChar_ne_nil (c : Char) : upperChar c ≠ [] := by
  unfold upperChar mapped
  split
  · rename_i codes found
    obtain ⟨_, _, split, -⟩ := List.lookup_eq_some_iff.1 found
    have checked := List.all_eq_true.1 upperExpansions_solid (c.toNat, codes) (by simp [split])
    rw [Bool.and_eq_true] at checked
    simpa using checked.1
  · split
    · exact List.cons_ne_nil _ _
    · exact List.cons_ne_nil _ _

private theorem isBlank_of_head?_trimChars {cs : List Char} {c : Char} (first : c ∈ (trimChars cs).head?) :
    isBlank c = false := by
  obtain ⟨cut, shortened⟩ : trimChars cs <+: cs.dropWhile isBlank := List.rdropWhile_prefix isBlank _
  obtain ⟨rest, shape⟩ := List.head?_eq_some_iff.1 first
  have stopped := List.head?_dropWhile_not isBlank cs
  rwa [← shortened, shape] at stopped

private theorem isBlank_of_getLast?_trimChars {cs : List Char} {c : Char} (last : c ∈ (trimChars cs).getLast?) :
    isBlank c = false := by
  have some_left : trimChars cs ≠ [] := List.ne_nil_of_mem (List.mem_of_getLast? last)
  obtain rfl := (List.getLast_eq_iff_getLast?_eq_some some_left).2 last
  exact Bool.eq_false_iff.2 (List.rdropWhile_last_not isBlank _ some_left)

theorem trim_upper_trim (s : String) : trim (upper (trim s)) = upper (trim s) := by
  rw [trim, upper, String.toList_ofList, trim, String.toList_ofList]
  refine congrArg String.ofList (trimChars_eq_self (fun d first => ?_) fun d last => ?_)
  · cases shape : trimChars s.toList with
    | nil =>
      rw [shape] at first
      cases first
    | cons c rest =>
      rw [shape, List.flatMap_cons, List.head?_append_of_ne_nil _ (upperChar_ne_nil c)] at first
      refine isBlank_of_image (@isBlank_of_head?_trimChars s.toList _ ?_) (List.mem_of_mem_head? first)
      rw [shape]
      rfl
  · obtain none_left | ⟨front, c, shape⟩ := List.eq_nil_or_concat (trimChars s.toList)
    · rw [none_left] at last
      cases last
    · rw [shape, List.concat_eq_append, List.flatMap_append, List.flatMap_singleton,
        List.getLast?_append_of_ne_nil _ (upperChar_ne_nil c)] at last
      refine isBlank_of_image (@isBlank_of_getLast?_trimChars s.toList _ ?_) (List.mem_of_getLast? last)
      rw [shape, List.concat_eq_append]
      exact List.getLast?_concat

theorem upper_eq_empty_iff {s : String} : upper s = "" ↔ s = "" := by
  rw [upper, String.ofList_eq_empty_iff, List.flatMap_eq_nil_iff]
  constructor
  · intro nothing
    refine String.toList_eq_nil_iff.1 (List.eq_nil_iff_forall_not_mem.2 fun c inside => ?_)
    exact upperChar_ne_nil c (nothing c inside)
  · rintro rfl c inside
    cases inside

end Screener.Text
