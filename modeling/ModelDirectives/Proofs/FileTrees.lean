import ModelDirectives.Files.Tree

namespace ModelDirectives

namespace Files

variable {Place : Type} [DecidableEq Place] {files : Files Place} {place : Place}
  {bytes : ByteArray}

theorem put_self : files.put place bytes place = some bytes :=
  if_pos rfl

theorem put_of_ne {p : Place} (h : p ≠ place) : files.put place bytes p = files p :=
  if_neg h

theorem isSome_put {p : Place} (h : (files p).isSome) : (files.put place bytes p).isSome := by
  unfold put
  split
  · rfl
  · exact h

end Files

namespace FileSystem

variable {Place : Type} [DecidableEq Place] {fs : FileSystem Place} {files after : Files Place}
  {path : String} {bytes : ByteArray}

theorem write_eq_ok_iff : fs.write files path bytes = .ok after ↔
    ∃ place, fs.target files path = .ok place ∧ after = files.put place bytes := by
  unfold write
  cases fs.target files path with
  | error fault => simp [Except.map]
  | ok place => simp [Except.map, eq_comm]

/-- Whether a file can be written does not depend on what is to stand in it. -/
theorem write_eq_error_iff {fault : FileFault} :
    fs.write files path bytes = .error fault ↔ fs.target files path = .error fault := by
  unfold write
  cases fs.target files path <;> simp [Except.map]

/-- What was written to a path is what is read from it. -/
theorem Lawful.read_of_write (lawful : fs.Lawful) (h : fs.write files path bytes = .ok after) :
    fs.read after path = .ok bytes := by
  obtain ⟨place, target, rfl⟩ := write_eq_ok_iff.mp h
  unfold read
  rw [lawful.locate_of_target target bytes]
  simp only [Files.put_self]

/-- Writing changes the file at one place only. -/
theorem elsewhere_of_write (h : fs.write files path bytes = .ok after) :
    ∃ place, fs.target files path = .ok place ∧ after place = some bytes ∧
      ∀ p, p ≠ place → after p = files p := by
  obtain ⟨place, target, rfl⟩ := write_eq_ok_iff.mp h
  exact ⟨place, target, Files.put_self, fun _ other => Files.put_of_ne other⟩

end FileSystem

namespace FileTree

variable {t : FileTree} {files : Files (List String)} {place here there : List String}
  {bytes : ByteArray}

theorem isFree_put (place : List String) (bytes : ByteArray) {p : List String}
    (h : t.isFree files p = false) :
    t.isFree (files.put place bytes) p = false := by
  simp only [isFree, Bool.and_eq_false_iff, Bool.not_eq_false', Option.isNone_eq_false_iff] at h ⊢
  exact h.imp_right Files.isSome_put

theorem walk_append {before : List String} (behind : List String)
    (h : t.walk files here before = .ok there) :
    t.walk files here (before ++ behind) = t.walk files there behind := by
  fun_induction walk t files here before with
  | case1 here =>
    cases h
    rfl
  | case2 => cases h
  | case3 here name rest folder stays ih =>
    rw [List.cons_append, walk, if_neg folder, if_pos stays]
    exact ih h
  | case4 here rest folder stays ih =>
    rw [List.cons_append, walk, if_neg folder, if_neg stays, if_pos rfl]
    exact ih h
  | case5 => cases h
  | case6 => cases h
  | case7 here name rest folder stays up long free ih =>
    rw [List.cons_append, walk, if_neg folder, if_neg stays, if_neg up, if_neg long, if_neg free]
    exact ih h

/-- A walk that succeeds is not disturbed by a further file: it passes through folders, and where it
found something there still is something. -/
theorem walk_put {names : List String} (h : t.walk files here names = .ok there) :
    t.walk (files.put place bytes) here names = .ok there := by
  fun_induction walk t files here names with
  | case1 => exact h
  | case2 => cases h
  | case3 here name rest folder stays ih =>
    rw [walk, if_neg folder, if_pos stays]
    exact ih h
  | case4 here rest folder stays ih =>
    rw [walk, if_neg folder, if_neg stays, if_pos rfl]
    exact ih h
  | case5 => cases h
  | case6 => cases h
  | case7 here name rest folder stays up long free ih =>
    have still := isFree_put place bytes (Bool.eq_false_iff.mpr free)
    rw [walk, if_neg folder, if_neg stays, if_neg up, if_neg long, if_neg (by simp [still])]
    exact ih h

theorem dropWhile_of_head?_ne {names : List String} (h : names.head? ≠ some "") :
    names.dropWhile (· = "") = names := by
  cases names with
  | nil => rfl
  | cons name rest =>
    have proper : name ≠ "" := fun blank => h (congrArg some blank)
    rw [List.dropWhile_cons_of_neg (by simpa using proper)]

/-- What holds where a path creates a file. -/
theorem of_target {path : String} (h : t.target files path = .ok place) :
    pathFault? path = none ∧ ∃ folder before last, place = folder ++ [last] ∧
      names path = before ++ [last] ∧ t.walk files (t.start path) before = .ok folder ∧
      t.isFolder folder ∧ staysHere last = false ∧ last ≠ ".." ∧ isLong last = false ∧
      t.isFolder place = false := by
  unfold target at h
  split at h
  next => cases h
  rename_i unobstructed
  simp only at h
  split at h
  next => cases h
  rename_i last before named
  split at h
  next => cases h
  rename_i folder walked
  split at h
  next => cases h
  rename_i isFolder
  split at h
  next => cases h
  rename_i proper
  split at h
  next => cases h
  rename_i short
  split at h
  next => cases h
  rename_i free
  cases h
  simp only [Bool.or_eq_true, decide_eq_true_eq, not_or] at proper
  obtain ⟨⟨slash, dot⟩, up⟩ := proper
  -- No slash stands at the end, so no name is dropped there.
  have front : (names path).reverse = last :: before := by
    rw [← List.head?_reverse] at slash
    rw [← dropWhile_of_head?_ne slash]
    exact named
  have whole : names path = before.reverse ++ [last] := by
    rw [← List.reverse_reverse (names path), front, List.reverse_cons]
  have blank : last ≠ "" := by
    intro same
    rw [whole, same] at slash
    simp at slash
  refine ⟨unobstructed, folder, before.reverse, last, rfl, whole, walked, ?_, ?_, up, ?_, ?_⟩
  · simpa using isFolder
  · simp [staysHere, blank, dot]
  · simpa using short
  · simpa using free

/-- In a tree a file that was written is found again. -/
theorem lawful (t : FileTree) : t.fileSystem.Lawful where
  locate_of_target := by
    intro files path place target bytes
    obtain ⟨unobstructed, folder, before, last, rfl, named, walked, isFolder, stays, up, short,
      free⟩ := of_target target
    have taken : t.isFree (files.put (folder ++ [last]) bytes) (folder ++ [last]) = false := by
      simp [isFree, Files.put_self]
    have whole : t.walk (files.put (folder ++ [last]) bytes) (t.start path) (names path) =
        .ok (folder ++ [last]) := by
      rw [named, walk_append [last] (walk_put walked)]
      simp [walk, isFolder, stays, up, short, taken]
    show t.locate _ path = _
    unfold locate
    rw [unobstructed]
    simp only [whole, free, Bool.false_eq_true, if_false]

end FileTree

end ModelDirectives
