import Mathlib.Data.List.Infix
import Screener.Dictionary
import Screener.Files

/-! Where paths lead, and what is there when a node is put at a place. A path leads through directories, and a file right
below a directory is among its entries. A file where a file can be changes what stands at its own place alone: every
directory stays one, so every path leads where it led. -/
namespace Screener.Files
variable {files : Files} {place other : List String} {node : Node}

/-- A file is at the place or can be made there: it has a name, it is no directory or device, and what is above it is a
directory. -/
structure HasRoom (files : Files) (place : List String) : Prop where
  named : place ≠ []
  no_directory : files.isDirectoryAt place = false
  no_sink : files.at? place ≠ some .sink
  above : files.at? place = none → files.isDirectoryAt place.dropLast

private theorem lookup_replaced (nodes : List (List String × Node)) (other : List String) :
    (nodes.map fun entry => if entry.1 == place then (place, node) else entry).lookup other =
      if other = place then (nodes.lookup place).map fun _ => node else nodes.lookup other := by
  induction nodes with
  | nil => simp
  | cons entry rest ih =>
    obtain ⟨key, held⟩ := entry
    rw [List.map_cons]
    by_cases here : key = place
    · subst here
      simp only [BEq.rfl, if_true, List.lookup_cons, ih]
      by_cases same : other = key
      · simp [same]
      · simp [same, beq_eq_false_iff_ne.2 same]
    · simp only [beq_eq_false_iff_ne.2 here, Bool.false_eq_true, if_false, List.lookup_cons, ih,
        beq_eq_false_iff_ne.2 (Ne.symm here)]
      by_cases same : other = place
      · subst same
        simp [beq_eq_false_iff_ne.2 (Ne.symm here)]
      · simp [same]

theorem at?_put (no_sink : files.at? place ≠ some .sink) (node : Node) (other : List String) :
    (files.put place node).at? other = if other = place then some node else files.at? other := by
  unfold put
  cases found : files.at? place with
  | none =>
    have added : (⟨files.nodes ++ [(place, node)]⟩ : Files).at? other =
        (files.nodes.lookup other).or ([(place, node)].lookup other) := List.lookup_append
    simp only [added]
    by_cases same : other = place
    · subst same
      have absent : files.nodes.lookup other = none := found
      simp [absent]
    · rw [if_neg same, List.lookup_cons, beq_eq_false_iff_ne.2 same, List.lookup_nil, Option.or_none]
      rfl
  | some held =>
    have replaced := @lookup_replaced place node files.nodes other
    have there : files.nodes.lookup place = some held := found
    rw [there, Option.map_some] at replaced
    cases held with
    | sink => exact absurd found no_sink
    | _ => exact replaced

private theorem map_fst_put (no_sink : files.at? place ≠ some .sink) :
    (files.put place node).nodes.map Prod.fst =
      files.nodes.map Prod.fst ++ (if files.at? place = none then [place] else []) := by
  unfold put
  cases found : files.at? place with
  | none => simp
  | some held =>
    have same : (files.nodes.map fun entry => if entry.1 == place then (place, node) else entry).map Prod.fst =
        files.nodes.map Prod.fst := by
      rw [List.map_map]
      refine List.map_congr_left fun entry _ => ?_
      by_cases here : entry.1 = place <;> simp [here]
    rw [if_neg (Option.some_ne_none held), List.append_nil]
    cases held with
    | sink => exact absurd found no_sink
    | _ => exact same

private theorem any_isPrefixOf (files : Files) (other : List String) :
    (files.nodes.any fun entry => other.isPrefixOf entry.1) = (files.nodes.map Prod.fst).any other.isPrefixOf := by
  rw [List.any_map]
  rfl

private theorem any_isPrefixOf_of_isDirectoryAt {above : List String} (directory : files.isDirectoryAt place)
    (leads : above <+: place) (free : files.at? above = none) :
    (above.isEmpty || files.nodes.any fun entry => above.isPrefixOf entry.1) = true := by
  unfold isDirectoryAt at directory
  cases found : files.at? place with
  | some held =>
    obtain ⟨front, back, split, -⟩ := List.lookup_eq_some_iff.1 found
    refine Bool.or_eq_true_iff.2 (.inr (List.any_eq_true.2 ⟨(place, held), ?_, List.isPrefixOf_iff_prefix.2 leads⟩))
    rw [split]
    exact List.mem_append_right _ List.mem_cons_self
  | none =>
    rw [found] at directory
    rcases Bool.or_eq_true_iff.1 directory with root | below
    · obtain rfl := List.isEmpty_iff.1 root
      obtain rfl := List.prefix_nil.1 leads
      rfl
    · obtain ⟨entry, inside, further⟩ := List.any_eq_true.1 below
      have further := leads.trans (List.isPrefixOf_iff_prefix.1 further)
      exact Bool.or_eq_true_iff.2 (.inr (List.any_eq_true.2 ⟨entry, inside, List.isPrefixOf_iff_prefix.2 further⟩))

private theorem isDirectoryAt_put (room : files.HasRoom place) (file : node.isDirectory = false) (other : List String) :
    (files.put place node).isDirectoryAt other = files.isDirectoryAt other := by
  unfold isDirectoryAt
  rw [at?_put room.no_sink]
  by_cases here : other = place
  · subst here
    have before := room.no_directory
    rw [isDirectoryAt] at before
    rw [if_pos rfl, before]
    exact file
  · rw [if_neg here]
    cases found : files.at? other with
    | some held => rfl
    | none =>
      rw [any_isPrefixOf, any_isPrefixOf, map_fst_put room.no_sink, List.any_append, ← Bool.or_assoc, ← any_isPrefixOf]
      -- A place that is new leads through the directory above it.
      by_cases made : files.at? place = none ∧ other <+: place
      · obtain ⟨free, leads⟩ := made
        have shorter : other <+: place.dropLast := by
          rw [← List.dropLast_append_getLast room.named] at leads
          exact (List.prefix_concat_iff.1 leads).resolve_left (by rwa [List.dropLast_append_getLast])
        rw [any_isPrefixOf_of_isDirectoryAt (room.above free) shorter found, Bool.true_or]
      · have nothing : (if files.at? place = none then [place] else []).any other.isPrefixOf = false := by
          split
          · rename_i free
            rw [List.any_cons, List.any_nil, Bool.or_false]
            exact Bool.eq_false_iff.2 fun leads => made ⟨free, List.isPrefixOf_iff_prefix.1 leads⟩
          · rfl
        rw [nothing, Bool.or_false]

private theorem place?_put (room : files.HasRoom place) (file : node.isDirectory = false) (path : String) :
    (files.put place node).place? path = files.place? path := by
  have step : (files.put place node).step? = files.step? := by
    funext above name
    rw [step?, step?, isDirectoryAt_put room file]
  rw [place?, place?, step]

theorem text?_put (room : files.HasRoom place) (file : node.isDirectory = false) {path : String}
    (elsewhere : files.place? path ≠ some place) : (files.put place node).text? path = files.text? path := by
  have found : (files.put place node).find? path = files.find? path := by
    rw [find?, find?, place?_put room file]
    cases leads : files.place? path with
    | none => rfl
    | some other =>
      have differs : other ≠ place := fun same => elsewhere (same ▸ leads)
      rw [Option.bind_some, Option.bind_some, at?_put room.no_sink, if_neg differs]
  rw [text?, text?, found]

theorem foldedPlace?_put {held : Node} (there : files.at? place = some held) (no_sink : held ≠ .sink) (node : Node)
    (directory : held.isDirectory = node.isDirectory) (path : String) :
    (files.put place node).foldedPlace? path = files.foldedPlace? path := by
  have step : (files.put place node).foldStep? = files.foldStep? := by
    funext above name
    have kept : ((files.put place node).at? above).all Node.isDirectory = (files.at? above).all Node.isDirectory := by
      rw [at?_put (fun sink => no_sink (Option.some.inj (there.symm.trans sink)))]
      by_cases here : above = place
      · rw [if_pos here, here, there, Option.all_some, Option.all_some, directory]
      · rw [if_neg here]
    rw [foldStep?, foldStep?, kept]
  rw [foldedPlace?, foldedPlace?, step]

private theorem foldStep?_congr {files' : Files} {name : String} {next next' : List String}
    (first : files.foldStep? place name = some next) (second : files'.foldStep? place name = some next') :
    next = next' := by
  unfold foldStep? at first second
  split at first
  · rename_i stays
    rw [if_pos stays] at second
    exact Option.some.inj (first.symm.trans second)
  · rename_i moves
    rw [if_neg moves] at second
    split at first
    · rename_i back
      rw [if_pos back] at second
      exact Option.some.inj (first.symm.trans second)
    · rename_i on
      rw [if_neg on] at second
      obtain ⟨-, down⟩ := Option.ite_none_right_eq_some.1 first
      obtain ⟨-, down'⟩ := Option.ite_none_right_eq_some.1 second
      exact Option.some.inj (down.symm.trans down')

/-- A path that is put in order first leads to one place if it leads anywhere, whatever files there are. -/
theorem foldedPlace?_congr {files' : Files} {path : String} {place place' : List String}
    (first : files.foldedPlace? path = some place) (second : files'.foldedPlace? path = some place') :
    place = place' := by
  unfold foldedPlace? at first second
  generalize names path = steps at first second
  generalize ([] : List String) = start at first second
  induction steps generalizing start with
  | nil => exact Option.some.inj (first.symm.trans second)
  | cons name rest ih =>
    rw [List.foldlM_cons] at first second
    obtain ⟨next, step, first⟩ := Option.bind_eq_some_iff.1 first
    obtain ⟨next', step', second⟩ := Option.bind_eq_some_iff.1 second
    obtain rfl := foldStep?_congr step step'
    exact ih next first second

private theorem isDirectoryAt_root {path : String} (leads : files.place? path = some place) :
    files.isDirectoryAt [] := by
  obtain ⟨name, rest, steps⟩ := List.exists_cons_of_ne_nil (List.splitOn_ne_nil '/' path.toList)
  rw [place?, names, steps, List.map_cons, List.foldlM_cons] at leads
  obtain ⟨next, step, -⟩ := Option.bind_eq_some_iff.1 leads
  unfold step? at step
  split at step
  · cases step
  · rename_i directory
    simpa using directory

private theorem isDirectoryAt_above {path : String} (leads : files.place? path = some place) {above : List String}
    (passed : above <+: place) (further : above ≠ place) : files.isDirectoryAt above := by
  have start : ∀ above, above <+: ([] : List String) → above ≠ [] → files.isDirectoryAt above :=
    fun above passed further => absurd (List.prefix_nil.1 passed) further
  unfold place? at leads
  generalize names path = steps at leads
  generalize ([] : List String) = here at leads start
  induction steps generalizing here with
  | nil => exact start above (Option.some.inj leads ▸ passed) (Option.some.inj leads ▸ further)
  | cons name rest ih =>
    rw [List.foldlM_cons] at leads
    obtain ⟨next, step, leads⟩ := Option.bind_eq_some_iff.1 leads
    refine ih next leads fun above passed further => ?_
    unfold step? at step
    split at step
    · cases step
    · rename_i directory
      split at step
      · cases step
        exact start above passed further
      · split at step
        · cases step
          refine start above (passed.trans (List.dropLast_prefix here)) ?_
          rintro rfl
          exact further (passed.eq_of_length_le (by simp))
        · split at step
          · cases step
            rcases List.prefix_concat_iff.1 passed with same | passed
            · exact absurd same further
            · by_cases same : above = here
              · simpa [same] using directory
              · exact start above passed same
          · cases step

/-- Where a file is written there is room for one, or a device that forgets it. -/
theorem write?_eq_some {path : String} {left : Files} (wrote : files.write? path node = some left) :
    ∃ place, files.place? path = some place ∧ (left = files ∨ files.HasRoom place ∧ left = files.put place node) := by
  obtain ⟨place, leads, wrote⟩ := Option.bind_eq_some_iff.1 wrote
  split at wrote
  · cases wrote
  · rename_i file
    cases wrote
    have named : place ≠ [] := by
      rintro rfl
      exact file (isDirectoryAt_root leads)
    have above : files.isDirectoryAt place.dropLast := by
      refine isDirectoryAt_above leads (List.dropLast_prefix place) fun same => ?_
      have shorter := congrArg List.length same
      have some_name := List.length_pos_of_ne_nil named
      rw [List.length_dropLast] at shorter
      omega
    refine ⟨place, leads, ?_⟩
    by_cases sink : files.at? place = some .sink
    · exact .inl (by simp only [put, sink])
    · exact .inr ⟨⟨named, Bool.eq_false_iff.2 file, sink, fun _ => above⟩, rfl⟩

structure IsStep (name : String) : Prop where
  plain : '/' ∉ name.toList
  named : ¬(name = "" ∨ name = ".")
  down : name ≠ ".."

private theorem splitOn_of_plain {letters : List Char} (plain : '/' ∉ letters) : letters.splitOn '/' = [letters] := by
  rw [List.splitOn_eq_splitOnP]
  exact List.splitOnP_eq_singleton fun c inside => beq_eq_false_iff_ne.2 fun same => plain (same ▸ inside)

private theorem splitOn_below (front : List Char) {name : String} (plain : '/' ∉ name.toList) :
    ((front ++ '/' :: name.toList).splitOn '/').map String.ofList = (front.splitOn '/').map String.ofList ++ [name] := by
  have slash : ('/' == '/') = true := rfl
  have parts := @List.splitOnP_append_cons Char (· == '/') front name.toList '/' slash
  rw [← List.splitOn_eq_splitOnP, ← List.splitOn_eq_splitOnP, ← List.splitOn_eq_splitOnP, splitOn_of_plain plain] at parts
  rw [parts, List.map_append, List.map_singleton, String.ofList_toList]

private theorem steps_below {name : String} (step : IsStep name) {steps next : List String}
    (leads : (steps ++ [name]).foldlM files.step? [] = some next) : ∃ place, steps.foldlM files.step? [] = some place ∧
      next = place ++ [name] ∧ (steps ++ [""]).foldlM files.step? [] = some place := by
  rw [List.foldlM_append] at leads
  obtain ⟨place, first, last⟩ := Option.bind_eq_some_iff.1 leads
  have last : files.step? place name = some next := by simpa using last
  unfold step? at last
  split at last
  · cases last
  · rename_i directory
    rw [if_neg step.named, if_neg step.down] at last
    obtain ⟨-, same⟩ := Option.ite_none_right_eq_some.1 last
    have stays : files.step? place "" = some place := by rw [step?, if_neg directory, if_pos (.inl rfl)]
    refine ⟨place, first, (Option.some.inj same).symm, ?_⟩
    rw [List.foldlM_append, first]
    simpa using stays

private theorem place?_join {directory name : String} (step : IsStep name) {next : List String}
    (leads : files.place? (join directory name) = some next) :
    ∃ place, files.place? directory = some place ∧ next = place ++ [name] := by
  have relative : ¬name.startsWith "/" := by
    rw [String.startsWith_string_iff]
    exact fun ⟨rest, shape⟩ => step.plain (shape ▸ List.mem_append_left rest List.mem_cons_self)
  have alone : (name.toList.splitOn '/').map String.ofList = [name] := by
    rw [splitOn_of_plain step.plain, List.map_singleton, String.ofList_toList]
  unfold join at leads
  split at leads
  · rename_i top
    obtain rfl := String.isEmpty_iff.1 (top.resolve_left relative)
    rw [place?, names, alone] at leads
    obtain ⟨place, root, below, here⟩ := @steps_below files name step [] next leads
    exact ⟨place, here, below⟩
  · split at leads
    · rename_i closed
      rw [String.endsWith_eq_endsWith_toSlice, String.Slice.endsWith_string_iff, String.copy_toSlice] at closed
      obtain ⟨front, shape⟩ := closed
      have shape : front ++ ['/'] = directory.toList := shape
      have parts := splitOn_below front step.plain
      have parts' := @splitOn_below front "" (by simp)
      have path : names (directory ++ name) = (front.splitOn '/').map String.ofList ++ [name] := by
        rw [names, String.toList_append, ← shape, List.append_assoc]
        exact parts
      have up : names directory = (front.splitOn '/').map String.ofList ++ [""] := by
        rw [names, ← shape]
        exact parts'
      rw [place?, path] at leads
      obtain ⟨place, -, below, here⟩ := steps_below step leads
      exact ⟨place, by rw [place?, up, here], below⟩
    · have path : names (directory ++ "/" ++ name) = names directory ++ [name] := by
        rw [names, String.toList_append, String.toList_append, List.append_assoc]
        exact splitOn_below directory.toList step.plain
      rw [place?, path] at leads
      obtain ⟨place, there, below, -⟩ := steps_below step leads
      exact ⟨place, there, below⟩

theorem mem_entries_of_isFile {directory name : String} (step : IsStep name) (there : files.isFile (join directory name)) :
    (name, true) ∈ files.entries directory := by
  obtain ⟨node, found, file⟩ := (Option.any_eq_true _ _).1 there
  obtain ⟨next, leads, found⟩ := Option.bind_eq_some_iff.1 found
  obtain ⟨place, up, rfl⟩ := place?_join step leads
  obtain ⟨front, back, split, -⟩ := List.lookup_eq_some_iff.1 found
  have below : below? place (place ++ [name]) = some (name, false) := by
    rw [below?, if_pos (List.isPrefixOf_iff_prefix.2 (List.prefix_append place [name])), List.drop_left]
    rfl
  simp only [entries, up]
  rw [List.mem_eraseDups, List.mem_filterMap]
  refine ⟨(place ++ [name], node), ?_, ?_⟩
  · rw [split]
    exact List.mem_append_right _ List.mem_cons_self
  · simp only [below, Option.map_some, file]
    rfl

theorem isDirectory_of_isFile (file : node.isFile) : node.isDirectory = false := by
  cases node with
  | directory => cases file
  | _ => rfl

theorem HasRoom.put (room : files.HasRoom place) (file : node.isFile) : (files.put place node).HasRoom place := by
  have directory := isDirectory_of_isFile file
  have there : (files.put place node).at? place = some node := by rw [at?_put room.no_sink, if_pos rfl]
  refine ⟨room.named, ?_, ?_, ?_⟩
  · rw [isDirectoryAt_put room directory, room.no_directory]
  · rw [there]
    rintro ⟨⟩
    cases file
  · rw [there]
    intro free
    cases free

/-- Every path leads where it led, and whatever it leads to but the one place is the same text. -/
structure SameBut (place : List String) (files files' : Files) : Prop where
  leads : ∀ path, files'.place? path = files.place? path
  texts : ∀ path, files.place? path ≠ some place → files'.text? path = files.text? path

theorem SameBut.refl (files : Files) (place : List String) : SameBut place files files :=
  ⟨fun _ => rfl, fun _ _ => rfl⟩

theorem SameBut.trans {files' files'' : Files} (first : SameBut place files files') (second : SameBut place files' files'') :
    SameBut place files files'' :=
  ⟨fun path => (second.leads path).trans (first.leads path), fun path elsewhere =>
    (second.texts path ((first.leads path).symm ▸ elsewhere)).trans (first.texts path elsewhere)⟩

theorem sameBut_put (room : files.HasRoom place) (file : node.isFile) : SameBut place files (files.put place node) := by
  have directory := isDirectory_of_isFile file
  exact ⟨place?_put room directory, fun _ => text?_put room directory⟩

end Screener.Files
