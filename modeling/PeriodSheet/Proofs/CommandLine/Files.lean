import PeriodSheet.CommandLine.FileTree

/-!
# Reading what was written

What a write leaves to be read.  A text that is put where a file is leaves all directories as they
are, so that each path leads where it led (`placeOf?_put_of_file`); one that is put anywhere else
can only add directories, so that a path that led to a file still does (`placeOf?_put`).  After
that a path gives the new text or the old one, as it leads to the written place or to another
(`read_write?_self`, `read_write?_of_ne`).
-/

namespace PeriodSheet.CommandLine.FileTree

variable {tree left : FileTree} {place other : List String} {path content : String}

/-! ### Directories -/

theorem isDirectory_iff (tree : FileTree) (place : List String) :
    tree.isDirectory place = true ↔ place ∈ standingDirectories ∨
      ∃ file ∈ tree.files, place.length < file.1.length ∧ file.1.take place.length = place := by
  simp [isDirectory]

theorem mem_files_put {file : List String × String}
    (h : file ∈ (tree.put place content).files) : file = (place, content) ∨ file ∈ tree.files := by
  unfold put at h
  split at h
  · exact .inr h
  · obtain h | h := List.mem_cons.1 h
    · exact .inl h
    · exact .inr (List.mem_filter.1 h).1

/-- A place that has a file still has one after a text was put anywhere. -/
theorem exists_mem_files_put {file : List String × String} (h : file ∈ tree.files)
    (place : List String) (content : String) :
    ∃ kept ∈ (tree.put place content).files, kept.1 = file.1 := by
  unfold put
  split
  · exact ⟨file, h, rfl⟩
  · by_cases heq : file.1 = place
    · exact ⟨_, List.mem_cons_self, heq.symm⟩
    · exact ⟨file, List.mem_cons_of_mem _ (List.mem_filter.2 ⟨h, bne_iff_ne.2 heq⟩), rfl⟩

theorem isDirectory_put (h : tree.isDirectory other = true) :
    (tree.put place content).isDirectory other = true := by
  rw [isDirectory_iff] at h ⊢
  refine h.imp_right fun ⟨file, hfile, hbelow⟩ => ?_
  obtain ⟨kept, hkept, heq⟩ := exists_mem_files_put hfile place content
  exact ⟨kept, hkept, heq ▸ hbelow⟩

theorem isDirectory_put_of_file {old : String} (h : (place, old) ∈ tree.files) :
    (tree.put place content).isDirectory other = tree.isDirectory other := by
  rw [Bool.eq_iff_iff]
  refine ⟨fun hput => ?_, isDirectory_put⟩
  rw [isDirectory_iff] at hput ⊢
  refine hput.imp_right fun ⟨file, hfile, hbelow⟩ => ?_
  obtain rfl | hfile := mem_files_put hfile
  · exact ⟨(place, old), h, hbelow⟩
  · exact ⟨file, hfile, hbelow⟩

/-! ### Places -/

theorem walk_of_isDirectory (h : ∀ d, tree.isDirectory d = true → left.isDirectory d = true)
    {start : List String} {parts : List String} (hwalk : tree.walk start parts = some place) :
    left.walk start parts = some place := by
  induction parts generalizing start with
  | nil => exact hwalk
  | cons part rest ih =>
    rw [walk] at hwalk ⊢
    split at hwalk
    · rename_i hdirectory
      rw [Bool.and_eq_true] at hdirectory
      rw [h start hdirectory.1, hdirectory.2]
      exact ih hwalk
    · cases hwalk

theorem placeOf?_of_isDirectory (h : ∀ d, tree.isDirectory d = true → left.isDirectory d = true)
    (hplace : tree.placeOf? path = some place) : left.placeOf? path = some place := by
  unfold placeOf? at hplace ⊢
  split at hplace
  · rename_i hpath
    rw [if_pos hpath]
    exact walk_of_isDirectory h hplace
  · cases hplace

theorem placeOf?_put (h : tree.placeOf? path = some other) :
    (tree.put place content).placeOf? path = some other :=
  placeOf?_of_isDirectory (fun _ => isDirectory_put) h

theorem placeOf?_put_of_file {old : String} (h : (place, old) ∈ tree.files) (path : String) :
    (tree.put place content).placeOf? path = tree.placeOf? path := by
  refine Option.ext fun other => ⟨fun hput => ?_, placeOf?_put⟩
  exact placeOf?_of_isDirectory (fun d hd => (isDirectory_put_of_file h).symm.trans hd) hput

/-! ### Texts -/

theorem fileAt?_put_self (hplace : place ≠ nullDevice) :
    (tree.put place content).fileAt? place = some content := by
  rw [fileAt?, if_neg hplace, put, if_neg hplace]
  exact List.lookup_cons_self

theorem lookup_filter_of_ne (hne : other ≠ place) (files : List (List String × String)) :
    (files.filter (·.1 != place)).lookup other = files.lookup other := by
  induction files with
  | nil => rfl
  | cons file rest ih =>
    obtain ⟨name, text⟩ := file
    by_cases heq : name = place
    · subst heq
      have hskip : (other == name) = false := beq_eq_false_iff_ne.2 hne
      rw [List.filter_cons_of_neg (by simp), ih, List.lookup_cons, hskip]
    · rw [List.filter_cons_of_pos (by simpa using heq), List.lookup_cons, List.lookup_cons, ih]

theorem fileAt?_put_of_ne (hne : other ≠ place) :
    (tree.put place content).fileAt? other = tree.fileAt? other := by
  unfold put fileAt?
  by_cases hplace : place = nullDevice
  · rw [if_pos hplace]
  · have hskip : (other == place) = false := beq_eq_false_iff_ne.2 hne
    rw [if_neg hplace]
    simp only [List.lookup_cons, hskip, lookup_filter_of_ne hne]

theorem read_eq_text_iff :
    tree.read path = .text content ↔
      ∃ place, tree.placeOf? path = some place ∧ tree.fileAt? place = some content := by
  unfold read
  constructor
  · intro h
    split at h
    · cases h
    · rename_i place hplace
      split at h
      · rename_i text htext
        obtain rfl := FileText.text.inj h
        exact ⟨place, hplace, htext⟩
      · split at h <;> cases h
  · rintro ⟨place, hplace, hfile⟩
    simp only [hplace, hfile]

theorem exists_place_of_write? (h : tree.write? path content = some left) :
    ∃ place, tree.placeOf? path = some place ∧ left = tree.put place content := by
  unfold write? at h
  split at h
  · cases h
  · rename_i place hplace
    split at h
    · cases h
    · exact ⟨place, hplace, (Option.some.inj h).symm⟩

/-- A text can be written where a text was read, unless files stand below it. -/
theorem exists_write? {old : String} (hread : tree.read path = .text old)
    (hplaces : ∀ place, tree.placeOf? path = some place → tree.isDirectory place = false)
    (content : String) : ∃ left, tree.write? path content = some left := by
  obtain ⟨place, hplace, -⟩ := read_eq_text_iff.1 hread
  refine ⟨tree.put place content, ?_⟩
  simp only [write?, hplace, hplaces place hplace]
  rfl

/-- Where a text that is not empty was read, a text can be replaced: then the path gives the new
text, and all paths lead where they led. -/
theorem read_write?_self {old : String} (hread : tree.read path = .text old) (hold : old ≠ "")
    (h : tree.write? path content = some left) :
    left.read path = .text content ∧ ∀ other, left.placeOf? other = tree.placeOf? other := by
  obtain ⟨place, hplace, rfl⟩ := exists_place_of_write? h
  obtain ⟨_, hplace', hfile⟩ := read_eq_text_iff.1 hread
  obtain rfl := Option.some.inj (hplace.symm.trans hplace')
  have hdevice : place ≠ nullDevice := by
    rintro rfl
    exact hold (Option.some.inj hfile).symm
  rw [fileAt?, if_neg hdevice] at hfile
  have hmem : (place, old) ∈ tree.files := by
    obtain ⟨before, after, hfiles, -⟩ := List.lookup_eq_some_iff.1 hfile
    rw [hfiles]
    exact List.mem_append_right before List.mem_cons_self
  exact ⟨read_eq_text_iff.2 ⟨place, placeOf?_put hplace, fileAt?_put_self hdevice⟩,
    placeOf?_put_of_file hmem⟩

/-- A path that leads to another place than the written one gives the text that it gave. -/
theorem read_write?_of_ne {path' old : String} (hread : tree.read path' = .text old)
    (h : tree.write? path content = some left)
    (hne : ∀ place, tree.placeOf? path = some place → tree.placeOf? path' ≠ some place) :
    left.read path' = .text old := by
  obtain ⟨place, hplace, rfl⟩ := exists_place_of_write? h
  obtain ⟨other, hother, hfile⟩ := read_eq_text_iff.1 hread
  refine read_eq_text_iff.2 ⟨other, placeOf?_put hother, ?_⟩
  rw [fileAt?_put_of_ne, hfile]
  rintro rfl
  exact hne other hplace hother

end PeriodSheet.CommandLine.FileTree
