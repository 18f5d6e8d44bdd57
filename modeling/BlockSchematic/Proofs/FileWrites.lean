import BlockSchematic.Files
import BlockSchematic.Proofs.Rules

/-!
# Writing a file

A text that was written is read back at the same path, and no other file has changed. What was
put in place is no obstacle to the steps that led there: a directory stays a directory.
-/

namespace BlockSchematic

/-- No key is lost when another value goes into a map. -/
theorem KeyMap.exists_mem_put {α : Type} (key : String) (value : α) {entries : List (String × α)}
    {e : String × α} (he : e ∈ entries) : ∃ d ∈ KeyMap.put key value entries, d.1 = e.1 := by
  induction entries with
  | nil => cases he
  | cons first rest ih =>
    rw [KeyMap.put]
    split
    · exact ⟨e, List.mem_cons_of_mem _ he, rfl⟩
    · split
      · rename_i same
        rcases List.mem_cons.1 he with rfl | later
        · exact ⟨_, List.mem_cons_self, same⟩
        · exact ⟨e, List.mem_cons_of_mem _ later, rfl⟩
      · rcases List.mem_cons.1 he with rfl | later
        · exact ⟨e, List.mem_cons_self, rfl⟩
        · obtain ⟨d, hd, same⟩ := ih later
          exact ⟨d, List.mem_cons_of_mem _ hd, same⟩

namespace Files

/-- Only the file at a path has changed, and it holds a text now. -/
structure Replaced (before : Files) (path text : String) (after : Files) : Prop where
  reads : after.read path = .ok text
  others : ∃ names, before.locate path = .ok names ∧
    ∀ key ≠ Path.ofNames names, after.contents.get? key = before.contents.get? key
  directories : after.directories = before.directories

variable {files after : Files} {names : List String} {path text : String}

theorem not_isAround_of_entry (free : files.entry names ≠ .directory) :
    ¬isAround names = true := by
  intro around
  rw [entry, if_pos around] at free
  exact free rfl

theorem get?_put (text : String) (key : String) :
    (files.put names text).contents.get? key =
      if key = Path.ofNames names then some (.text text) else files.contents.get? key :=
  KeyMap.get?_insert _ _ _ _

theorem entry_put_self (text : String) (free : files.entry names ≠ .directory) :
    (files.put names text).entry names = .file (.text text) := by
  rw [entry, if_neg (not_isAround_of_entry free), get?_put, if_pos rfl]

/-- Whether some file lies below a path. -/
theorem any_below_put (text : String) {below : String}
    (h : (files.contents.toList.any fun e => below.isPrefixOf e.1) = true) :
    ((files.put names text).contents.toList.any fun e => below.isPrefixOf e.1) = true := by
  obtain ⟨e, he, under⟩ := List.any_eq_true.1 h
  obtain ⟨d, hd, same⟩ := KeyMap.exists_mem_put (Path.ofNames names) (Content.text text) he
  exact List.any_eq_true.2 ⟨d, hd, by rw [same]; exact under⟩

/-- A directory under another name than the new file's stays one. Two lists of names may spell the
same path, so it is the paths that are compared. -/
theorem entry_put_directory (text : String) (free : files.entry names ≠ .directory)
    {dir : List String} (isDir : files.entry dir = .directory) :
    (files.put names text).entry dir = .directory := by
  by_cases around : isAround dir = true
  · rw [entry, if_pos around]
  rw [entry, if_neg around] at isDir ⊢
  have apart : Path.ofNames dir ≠ Path.ofNames names := by
    intro same
    rw [entry, if_neg (not_isAround_of_entry free), ← same] at free
    exact free isDir
  rw [get?_put, if_neg apart]
  split at isDir
  · cases isDir
  · split at isDir
    · rename_i there
      refine if_pos (Bool.or_eq_true_iff.2 ?_)
      exact (Bool.or_eq_true_iff.1 there).imp id (any_below_put text)
    · cases isDir

theorem enter_put (text : String) (free : files.entry names ≠ .directory) {steps : List String}
    {here last : List String} (entered : files.enter here steps = .ok last) :
    (files.put names text).enter here steps = .ok last := by
  induction steps generalizing here with
  | nil => exact entered
  | cons name rest ih =>
    obtain ⟨next, taken, walked⟩ := bind_eq_ok_iff.1 entered
    refine bind_eq_ok_iff.2 ⟨next, taken, ?_⟩
    cases isDir : files.entry next with
    | directory =>
      rw [isDir] at walked
      rw [entry_put_directory text free isDir]
      exact ih walked
    | file content => rw [isDir] at walked; cases walked
    | missing => rw [isDir] at walked; cases walked

theorem enterParent_put (text : String) (free : files.entry names ≠ .directory)
    {parent : List String} (entered : files.enterParent path = .ok parent) :
    (files.put names text).enterParent path = .ok parent := by
  rw [enterParent] at entered ⊢
  split at entered
  · cases entered
  split at entered
  · cases entered
  split at entered
  · cases entered
  rename_i noNul notEmpty notLong
  rw [if_neg noNul, if_neg notEmpty, if_neg notLong]
  exact enter_put text free entered

theorem locate_put (text : String) (free : files.entry names ≠ .directory)
    {found : List String} (located : files.locate path = .ok found) :
    (files.put names text).locate path = .ok found := by
  obtain ⟨parent, entered, last⟩ := bind_eq_ok_iff.1 located
  exact bind_eq_ok_iff.2 ⟨parent, enterParent_put text free entered, last⟩

/-- A write that is not refused puts its text where the path leads. -/
theorem write_eq_ok (written : files.write path text = .ok after) :
    ∃ names, files.locate path = .ok names ∧ Path.endsInSlash path = false ∧
      files.entry names ≠ .directory ∧ after = files.put names text := by
  obtain ⟨_, -, rest⟩ := bind_eq_ok_iff.1 written
  split at rest
  · cases rest
  rename_i noSlash
  obtain ⟨names, located, put⟩ := bind_eq_ok_iff.1 rest
  refine ⟨names, located, by simpa using noSlash, ?_⟩
  split at put
  · cases put
  · rename_i free
    exact ⟨free, (Except.ok.inj put).symm⟩

theorem replaced_of_write (written : files.write path text = .ok after) :
    Replaced files path text after := by
  obtain ⟨names, located, noSlash, free, rfl⟩ := write_eq_ok written
  refine ⟨?_, ⟨names, located, fun key other => by rw [get?_put, if_neg other]⟩, rfl⟩
  have found : (files.put names text).find path = .ok (some (.text text)) := by
    refine bind_eq_ok_iff.2 ⟨names, locate_put text free located, ?_⟩
    simp only [entry_put_self text free, noSlash, Bool.false_eq_true, if_false]
  exact bind_eq_ok_iff.2 ⟨_, found, rfl⟩

end Files

end BlockSchematic
