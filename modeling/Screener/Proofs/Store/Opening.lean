import Screener.Proofs.Except
import Screener.Proofs.Files
import Screener.Store.Session

/-! Opening a database. A name leads to a file or into memory; a database that was opened is in its file with its tables
made, and no other file has changed. -/
namespace Screener.Session
variable {files reached left : Files} {name : Store.Name} {mode : Store.Mode} {session : Session} {store : Store}
  {place : List String}

private theorem reach_eq_ok (opened : reach files mode place = .ok reached) :
    place ≠ [] ∧ files.isDirectoryAt place = false ∧ (reached = files ∧ (files.at? place).isSome ∨
      reached = files.put place (.text "") ∧ files.at? place = none ∧ files.isDirectoryAt place.dropLast) := by
  unfold reach at opened
  split at opened
  · cases opened
  · rename_i named
    split at opened
    · cases opened
    · rename_i file
      refine ⟨mt List.isEmpty_iff.2 named, Bool.eq_false_iff.2 file, ?_⟩
      split at opened
      · rename_i there
        cases opened
        exact .inl ⟨rfl, there⟩
      · rename_i free
        split at opened
        · rename_i made
          cases opened
          exact .inr ⟨rfl, Option.not_isSome_iff_eq_none.1 free, (Bool.and_eq_true_iff.1 made).2⟩
        · cases opened

theorem reach_of_file (named : place ≠ []) (file : files.isDirectoryAt place = false) (there : (files.at? place).isSome) :
    reach files mode place = .ok files := by
  rw [reach, if_neg (mt List.isEmpty_iff.1 named), if_neg (Bool.eq_false_iff.1 file), if_pos there]

theorem ofName_eq_ok (opened : ofName files name = .ok (session, reached)) :
    session.writable = name.isWritable ∧ (name.file = none ∧ session.place = none ∧ reached = files ∨
      ∃ path place, name.file = some path ∧ files.foldedPlace? path = some place ∧ session.place = some place ∧
        reach files name.mode place = .ok reached) := by
  unfold ofName at opened
  split at opened
  · rename_i memory
    cases opened
    exact ⟨rfl, .inl ⟨memory, rfl, rfl⟩⟩
  · rename_i path in_file
    split at opened
    · cases opened
    · rename_i place leads
      obtain ⟨files, opened, same⟩ := bind_eq_ok_iff.1 opened
      cases same
      exact ⟨rfl, .inr ⟨path, place, in_file, leads, rfl, opened⟩⟩

private theorem store_eq_ok (in_file : session.place = some place) (read : session.store files = .ok store) :
    files.at? place = some (.database store) ∨ files.at? place = some (.text "") ∧ store = .blank := by
  simp only [Session.store, in_file] at read
  split at read
  · rename_i there
    cases read
    exact .inl there
  · rename_i content there
    split at read
    · rename_i empty
      cases read
      exact .inr ⟨String.isEmpty_iff.1 empty ▸ there, rfl⟩
    · cases read
  · cases read

theorem writable_of_keep (kept : session.keep store files = .ok left) : session.writable := by
  unfold keep at kept
  split at kept
  · cases kept
  · rename_i writable
    simpa using writable

theorem keep_in_memory (nowhere : session.place = none) (kept : session.keep store files = .ok left) : left = files := by
  have writable := writable_of_keep kept
  simp only [keep, writable, nowhere, Bool.not_true, Bool.false_eq_true, if_false] at kept
  exact (Except.ok.inj kept).symm

theorem keep_eq_ok (in_file : session.place = some place) (kept : session.keep store files = .ok left) :
    session.writable ∧ left = files.put place (.database store) := by
  have writable := writable_of_keep kept
  simp only [keep, writable, in_file, Bool.not_true, Bool.false_eq_true, if_false] at kept
  exact ⟨writable, (Except.ok.inj kept).symm⟩

theorem prepared_in_memory (nowhere : session.place = none) (made : session.prepared files = .ok (store, left)) :
    left = files := by
  obtain ⟨held, read, made⟩ := bind_eq_ok_iff.1 made
  split at made
  · cases made
    rfl
  · obtain ⟨other, kept, same⟩ := bind_eq_ok_iff.1 made
    cases same
    exact keep_in_memory nowhere kept

private theorem prepared_eq_ok (in_file : session.place = some place) (room : reached.HasRoom place)
    (made : session.prepared reached = .ok (store, left)) :
    left.at? place = some (.database store) ∧ store.ready ∧ reached.SameBut place left := by
  obtain ⟨held, read, made⟩ := bind_eq_ok_iff.1 made
  split at made
  · rename_i ready
    cases made
    rcases store_eq_ok in_file read with there | ⟨-, rfl⟩
    · exact ⟨there, ready, .refl reached place⟩
    · cases ready
  · obtain ⟨files, kept, same⟩ := bind_eq_ok_iff.1 made
    cases same
    obtain ⟨-, rfl⟩ := keep_eq_ok in_file kept
    exact ⟨by rw [Files.at?_put room.no_sink, if_pos rfl], rfl, Files.sameBut_put room rfl⟩

/-- A database that was opened is in its file with its tables, and if there was a text in the file it was empty. -/
theorem prepared_of_reach (in_file : session.place = some place) (opened : reach files mode place = .ok reached)
    (made : session.prepared reached = .ok (store, left)) :
    place ≠ [] ∧ left.at? place = some (.database store) ∧ store.ready ∧ files.SameBut place left ∧
      ∀ path content, files.place? path = some place → files.text? path = some content → content = "" := by
  obtain ⟨named, file, either⟩ := reach_eq_ok opened
  obtain ⟨held, read, -⟩ := bind_eq_ok_iff.1 made
  rcases either with ⟨rfl, -⟩ | ⟨rfl, free, above⟩
  · have stood := store_eq_ok in_file read
    have room : reached.HasRoom place := by
      refine ⟨named, file, ?_, ?_⟩ <;> rcases stood with there | ⟨there, -⟩ <;> simp [there]
    obtain ⟨there, ready, same⟩ := prepared_eq_ok in_file room made
    refine ⟨named, there, ready, same, fun path content leads text => ?_⟩
    rw [Files.text?, Files.find?, leads, Option.bind_some] at text
    rcases stood with there | ⟨there, -⟩ <;> simp_all
  · have room : files.HasRoom place := ⟨named, file, by simp [free], fun _ => above⟩
    obtain ⟨there, ready, same⟩ := prepared_eq_ok in_file (room.put rfl) made
    refine ⟨named, there, ready, (Files.sameBut_put room rfl).trans same, fun path content leads text => ?_⟩
    rw [Files.text?, Files.find?, leads, Option.bind_some, free] at text
    cases text

end Screener.Session
