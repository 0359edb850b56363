import DeclaredSource.Proofs.Storage.NormalForm

/-!
# What a successful operation has done

Whatever the path, an operation on the disk that succeeds has walked to a directory, and it has
changed what stands under one name there and nothing else. A file that was put is where its path
leads.
-/

namespace DeclaredSource.Storage

open Storage.Path

namespace Disk

open FileTree

variable {disk changed : Disk} {path : Path} {place : Location} {name : String}

theorem find_kept_start (disk : Disk) (path : Path) :
    disk.tree.find (disk.start path).kept = some .directory := by
  rw [start]
  split
  · exact disk.tree.find_root
  · exact disk.stands

theorem grounded_start (disk : Disk) (path : Path) : disk.tree.Grounded (disk.start path) :=
  fun _ ↦ disk.find_kept_start path

theorem locate_of_walk {standpoint : Standpoint} (accepted : refusal? path = none)
    (hwalk : disk.tree.walk (disk.start path) path.names = .ok standpoint)
    (closed : path.endsOpen = false) : disk.locate path = .ok standpoint := by
  rw [locate, accepted]
  dsimp only
  rw [hwalk]
  dsimp only
  rw [closed, Bool.false_and, if_neg (by decide)]

/-- The directory that the path leads to, and its last name. -/
structure Targets (disk : Disk) (path : Path) (outer : List String) (name : String) : Prop where
  accepted : refusal? path = none
  names : path.names = path.names.dropLast ++ [name]
  walk : disk.tree.walk (disk.start path) path.names.dropLast = .ok (under outer)
  directory : disk.tree.isFile (under outer) = false
  point : name ≠ "."
  level : name ≠ ".."

theorem target_eq_some (h : disk.target path = .ok (some (place, name))) :
    disk.Targets path place.reverse name := by
  rw [target] at h
  split at h
  · cases h
  next haccepted =>
  split at h
  · cases h
  next last hlast =>
  split at h
  · cases h
  next standpoint hwalk =>
  split at h
  · cases h
  next hfile =>
  split at h
  · cases h
  next hname =>
  split at h
  · cases h
  next hremoved =>
  have hboth := Option.some.inj (Except.ok.inj h)
  obtain ⟨rfl, rfl⟩ := Prod.mk.inj hboth
  have hstandpoint : standpoint = under standpoint.place.reverse := by
    rw [under, List.reverse_reverse, ← not_not.1 hremoved]
  rw [not_or] at hname
  rw [Bool.not_eq_true] at hfile
  exact ⟨haccepted, (List.dropLast_append_getLast? _ hlast).symm, hstandpoint ▸ hwalk,
    hstandpoint ▸ hfile, hname.1, hname.2⟩

theorem Targets.target {outer : List String} (h : disk.Targets path outer name) :
    disk.target path = .ok (some (outer.reverse, name)) := by
  rw [Disk.target, h.accepted, h.names, List.getLast?_concat, List.dropLast_concat]
  dsimp only
  rw [h.walk]
  dsimp only
  rw [h.directory, if_neg (by decide), if_neg (not_or.2 ⟨h.point, h.level⟩),
    if_neg (by simp [under])]
  rfl

/-- What stands under the last name is where the whole path leads. -/
theorem Targets.walk_names {outer : List String} (h : disk.Targets path outer name)
    (short : name.utf8ByteSize ≤ longestName)
    (found : disk.tree.lookup (outer ++ [name]) ≠ none) :
    disk.tree.walk (disk.start path) path.names = .ok (under (outer ++ [name])) := by
  have hunder : under (outer ++ [name]) = ⟨name :: outer.reverse, 0⟩ := by
    rw [under, List.reverse_append]
    rfl
  rw [h.names, walk_concat_eq_ok, hunder]
  rw [← find_cons] at found
  exact ⟨_, h.walk, .into h.directory h.point h.level short found⟩

/-- A file that is removed is where the path leads, and it is all that goes. -/
theorem removeFile_eq_ok (h : disk.removeFile path = .ok changed) :
    ∃ outer name contents, refusal? path = none ∧ path.endsOpen = false ∧
      disk.tree.walk (disk.start path) path.names = .ok (under (outer ++ [name])) ∧
      disk.tree.lookup (outer ++ [name]) = some (.file contents) ∧
      Puts disk.tree changed.tree (outer ++ [name]) none ∧
      changed.workingDirectory = disk.workingDirectory := by
  rw [removeFile] at h
  split at h
  · cases h
  · cases h
  next place name htarget =>
  split at h
  · cases h
  next hshort =>
  split at h
  · cases h
  · cases h
  next contents hfound =>
  split at h
  · cases h
  next hclosed =>
  cases h
  have htargets := target_eq_some htarget
  have hlookup : disk.tree.lookup (place.reverse ++ [name]) = some (.file contents) := by
    rwa [← find_cons, List.reverse_reverse]
  have hputs := puts_remove disk.tree place.reverse name
    (by rw [List.reverse_reverse]; exact isChildless_of_find_file hfound)
  simp only [List.reverse_reverse] at hputs
  exact ⟨place.reverse, name, contents, htargets.accepted, by rwa [Bool.not_eq_true] at hclosed,
    htargets.walk_names (Nat.not_lt.1 hshort) (by rw [hlookup]; simp), hlookup, hputs, rfl⟩

/-- A directory that is removed is where the path leads, and it is all that goes. -/
theorem removeDirectory_eq_ok (h : disk.removeDirectory path = .ok changed) :
    ∃ outer name, disk.tree.walk (disk.start path) path.names = .ok (under (outer ++ [name])) ∧
      disk.tree.lookup (outer ++ [name]) = some .directory ∧
      Puts disk.tree changed.tree (outer ++ [name]) none ∧
      changed.workingDirectory = disk.workingDirectory.afterRemoving (name :: outer.reverse) := by
  rw [removeDirectory] at h
  split at h
  · cases h
  · split at h <;> cases h
  next place name htarget =>
  split at h
  · cases h
  next hshort =>
  split at h
  · cases h
  · cases h
  next hfound =>
  split at h
  · next alone =>
    cases h
    have hlookup : disk.tree.lookup (place.reverse ++ [name]) = some .directory := by
      rwa [← find_cons, List.reverse_reverse]
    have hputs := puts_remove disk.tree place.reverse name (by rwa [List.reverse_reverse])
    simp only [List.reverse_reverse] at hputs
    exact ⟨place.reverse, name, (target_eq_some htarget).walk_names (Nat.not_lt.1 hshort)
      (by rw [hlookup]; simp), hlookup, hputs, by rw [List.reverse_reverse]⟩
  · cases h

theorem pruneDirectory_eq_true (h : disk.pruneDirectory path = .ok (true, changed)) :
    disk.removeDirectory path = .ok changed := by
  rw [pruneDirectory] at h
  split at h
  · cases h
  · cases h
  · split at h
    · cases h
    · next hremove =>
      cases h
      exact hremove

theorem put_eq_ok {entry : Entry} (h : disk.put place name entry = .ok changed) :
    disk.tree.lookup (place.reverse ++ [name]) ≠ some .directory ∧
      Puts disk.tree changed.tree (place.reverse ++ [name]) (some entry) ∧
      changed.workingDirectory = disk.workingDirectory := by
  rw [put] at h
  split at h
  · cases h
  next fits =>
  split at h
  next parent =>
    cases h
    refine ⟨by rwa [← find_cons, List.reverse_reverse], fun other ↦ ?_, rfl⟩
    rw [lookup, find_insert]
    simp only [List.reverse_eq_cons_iff]
    rfl
  · cases h

/-- A new directory is put where the path leads and nothing was. -/
theorem makeDirectory_eq_ok (h : disk.makeDirectory path = .ok changed) :
    ∃ outer name, disk.Targets path outer name ∧ name.utf8ByteSize ≤ longestName ∧
      disk.tree.lookup (outer ++ [name]) = none ∧
      Puts disk.tree changed.tree (outer ++ [name]) (some .directory) ∧
      changed.workingDirectory = disk.workingDirectory := by
  rw [makeDirectory] at h
  split at h
  · cases h
  · cases h
  next place name htarget =>
  split at h
  · cases h
  next hshort =>
  split at h
  · cases h
  next hnew =>
  obtain ⟨-, hputs, hworking⟩ := put_eq_ok h
  rw [not_not, ← List.reverse_reverse place, find_cons] at hnew
  exact ⟨place.reverse, name, target_eq_some htarget, Nat.not_lt.1 hshort, hnew, hputs, hworking⟩

/-- A new file takes the place of a file or of nothing, where the path leads. -/
theorem placeFile_eq_ok {contents : ByteArray} (h : disk.placeFile path contents = .ok changed) :
    ∃ outer name, disk.Targets path outer name ∧ name.utf8ByteSize ≤ longestName ∧
      path.endsOpen = false ∧ disk.tree.lookup (outer ++ [name]) ≠ some .directory ∧
      Puts disk.tree changed.tree (outer ++ [name]) (some (.file contents)) ∧
      changed.workingDirectory = disk.workingDirectory := by
  rw [placeFile] at h
  split at h
  · cases h
  split at h
  · cases h
  · cases h
  next place name htarget =>
  split at h
  · cases h
  next hshort =>
  split at h
  · cases h
  next hclosed =>
  rw [Bool.not_eq_true] at hclosed
  exact ⟨place.reverse, name, target_eq_some htarget, Nat.not_lt.1 hshort, hclosed, put_eq_ok h⟩

theorem replaceFile_eq_ok {directory : Path} {contents : ByteArray}
    (h : disk.replaceFile directory path contents = .ok changed) :
    disk.stage directory = .ok () ∧ disk.placeFile path contents = .ok changed := by
  rw [replaceFile] at h
  split at h
  · cases h
  next hstage =>
  split at h
  · cases h
  · next hplace =>
    cases h
    exact ⟨hstage, hplace⟩

/-- What contents are staged under is accepted as a path. -/
theorem accepted_of_stage {directory : Path} (habsolute : directory.isAbsolute = true)
    (h : disk.stage directory = .ok ()) : refusal? (directory.join ⟨[stagedName]⟩) = none := by
  rw [stage, absolute, if_pos habsolute] at h
  dsimp only at h
  split at h
  · cases h
  · cases h
  · next htarget => exact (target_eq_some htarget).accepted

/-! ## A path in a changed tree -/

/-- Putting something in the place of anything but a directory keeps every walk. -/
theorem keeps_of_puts {before after : FileTree} {names : List String} {entry : Entry}
    (h : Puts before after names (some entry)) (fits : before.lookup names ≠ some .directory) :
    Keeps before after where
  directory := by
    intro place hdirectory
    rw [← List.reverse_reverse place] at hdirectory ⊢
    refine (h.other ?_).trans hdirectory
    rintro rfl
    exact fits hdirectory
  found := by
    intro place hfound
    rw [← List.reverse_reverse place] at hfound ⊢
    by_cases hsame : place.reverse = names
    · have hput : after.find place.reverse.reverse = some entry := hsame ▸ h.same
      rw [hput]
      simp
    · exact fun hnone ↦ hfound ((h.other hsame).symm.trans hnone)

theorem start_of_workingDirectory (h : changed.workingDirectory = disk.workingDirectory) :
    changed.start path = disk.start path := by
  rw [start, start, h]

theorem Targets.kept {outer : List String} (h : disk.Targets path outer name)
    (hkeeps : Keeps disk.tree changed.tree)
    (hworking : changed.workingDirectory = disk.workingDirectory) :
    changed.Targets path outer name where
  accepted := h.accepted
  names := h.names
  walk := by
    rw [start_of_workingDirectory hworking]
    exact walk_kept hkeeps (disk.grounded_start path) h.walk
  directory := by
    have hgrounded := walk_grounded (disk.grounded_start path) h.walk
    exact isFile_eq_false_of_kept (hkeeps.directory _ (hgrounded h.directory))
  point := h.point
  level := h.level

theorem target_kept (h : disk.target path = .ok (some (place, name)))
    (hkeeps : Keeps disk.tree changed.tree)
    (hworking : changed.workingDirectory = disk.workingDirectory) :
    changed.target path = .ok (some (place, name)) := by
  have hkept := ((target_eq_some h).kept hkeeps hworking).target
  rwa [List.reverse_reverse] at hkept

/-- The path leads to what was put there. -/
theorem Targets.walk_put {outer : List String} {entry : Entry} (h : disk.Targets path outer name)
    (short : name.utf8ByteSize ≤ longestName)
    (fits : disk.tree.lookup (outer ++ [name]) ≠ some .directory)
    (hputs : Puts disk.tree changed.tree (outer ++ [name]) (some entry))
    (hworking : changed.workingDirectory = disk.workingDirectory) :
    changed.tree.walk (changed.start path) path.names = .ok (under (outer ++ [name])) := by
  have hafter := h.kept (keeps_of_puts hputs fits) hworking
  apply hafter.walk_names short
  rw [hputs.same]
  simp

theorem readFile_of_walk {names : List String} (accepted : refusal? path = none)
    (hwalk : disk.tree.walk (disk.start path) path.names = .ok (under names))
    (closed : path.endsOpen = false) {contents : ByteArray}
    (hfile : disk.tree.lookup names = some (.file contents)) :
    disk.readFile path = .ok contents := by
  have hentry : disk.tree.entryAt (under names) = some (.file contents) := hfile
  rw [readFile, locate_of_walk accepted hwalk closed]
  dsimp only
  rw [hentry]

/-- What is read is where the path leads. -/
theorem readFile_eq_ok {contents : ByteArray} (h : disk.readFile path = .ok contents) :
    ∃ names, refusal? path = none ∧ path.endsOpen = false ∧
      disk.tree.walk (disk.start path) path.names = .ok (under names) ∧
      disk.tree.lookup names = some (.file contents) := by
  rw [readFile, locate] at h
  split at h
  · cases h
  next standpoint hlocate =>
  split at hlocate
  · cases hlocate
  next haccepted =>
  split at hlocate
  · cases hlocate
  next finish hwalk =>
  split at hlocate
  · cases hlocate
  next hopen =>
  cases hlocate
  split at h
  · cases h
  · cases h
  next hentry =>
  cases h
  have hfile : disk.tree.isFile standpoint = true := by rw [isFile, hentry]
  obtain ⟨hremoved, -⟩ := isFile_eq_true.1 hfile
  have hunder : standpoint = under standpoint.place.reverse := by
    rw [under, List.reverse_reverse, ← hremoved]
  refine ⟨standpoint.place.reverse, haccepted, ?_, hunder ▸ hwalk, ?_⟩
  · simpa [hfile] using hopen
  · rwa [entryAt, if_pos hremoved, ← List.reverse_reverse standpoint.place] at hentry

/-- A file that is removed could be read. -/
theorem readFile_of_removeFile (h : disk.removeFile path = .ok changed) :
    ∃ contents, disk.readFile path = .ok contents := by
  obtain ⟨outer, name, contents, accepted, closed, hwalk, hfile, -⟩ := removeFile_eq_ok h
  exact ⟨contents, readFile_of_walk accepted hwalk closed hfile⟩

/-- A path that leads to a file ends in its name: by a point only a directory is kept. -/
theorem endsInName_of_walk {standpoint : Standpoint} (present : path.pieces ≠ [])
    (level : ".." ∉ path.pieces) (closed : path.endsOpen = false)
    (hwalk : disk.tree.walk (disk.start path) path.names = .ok standpoint)
    (hfile : disk.tree.isFile standpoint = true) : path.EndsInName := by
  obtain ⟨init, last, hpieces⟩ := (List.eq_nil_or_concat' path.pieces).resolve_left present
  have hempty : last ≠ "" := by simpa [endsOpen, hpieces] using closed
  rw [names_of_concat hpieces hempty, walk_concat_eq_ok] at hwalk
  obtain ⟨next, -, henters⟩ := hwalk
  refine ⟨init, last, hpieces, ?_⟩
  cases henters with
  | here directory =>
    rw [hfile] at directory
    cases directory
  | out => exact absurd (by simp [hpieces]) level
  | into directory point => simp [isIdle, hempty, point]

/-- A path that goes through names leads to nothing but them. -/
theorem eq_of_walk {names file : List String} (h : path.Denotes names)
    (hwalk : disk.tree.walk (disk.start path) path.names = .ok (under file)) :
    file = names ∧ ∀ name ∈ names, name.utf8ByteSize ≤ longestName := by
  have hlevel : ".." ∉ path.names := fun hup ↦ h.level (List.mem_of_mem_filter hup)
  obtain ⟨hfinish, -, hshort⟩ := walk_level hwalk path.present_names hlevel
  rw [path.proper_names, h.proper] at hfinish hshort
  have hplace : file.reverse = names.reverse ++ [] := by
    rw [start_eq h.absolute] at hfinish
    exact congrArg Standpoint.place hfinish
  rw [List.append_nil, List.reverse_inj] at hplace
  exact ⟨hplace, hshort⟩

/-- A path that goes through names and leads to a file spells them, and the file is there. -/
theorem spells_of_readFile {names : List String} (h : path.Denotes names) {contents : ByteArray}
    (hread : disk.readFile path = .ok contents) :
    path.Spells names ∧ path.EndsInName ∧ disk.tree.lookup names = some (.file contents) := by
  obtain ⟨file, accepted, closed, hwalk, hfile⟩ := readFile_eq_ok hread
  obtain ⟨rfl, hshort⟩ := eq_of_walk h hwalk
  have hpresent : path.pieces ≠ [] := by
    obtain ⟨first, rest, heq⟩ := exists_of_isAbsolute h.absolute
    simp [heq]
  have hisFile : disk.tree.isFile (under file) = true := isFile_eq_true.2 ⟨rfl, contents, hfile⟩
  exact ⟨⟨h, accepted, hshort⟩, endsInName_of_walk hpresent h.level closed hwalk hisFile, hfile⟩

/-- A file is missing only where its path does not lead to anything. -/
theorem lookup_of_readFile_notFound {names : List String}
    (h : disk.readFile path = .error .notFound)
    (accepted : refusal? path = none)
    (hwalk : disk.tree.walk (disk.start path) path.names = .ok (under names))
    (closed : path.endsOpen = false) : disk.tree.lookup names = none := by
  have hentry : disk.tree.entryAt (under names) = disk.tree.lookup names := rfl
  rw [readFile, locate_of_walk accepted hwalk closed] at h
  dsimp only at h
  rw [hentry] at h
  split at h
  · assumption
  · cases h
  · cases h

/-- What was put is read back. -/
theorem readFile_of_placeFile {contents : ByteArray}
    (h : disk.placeFile path contents = .ok changed) : changed.readFile path = .ok contents := by
  obtain ⟨outer, name, htargets, hshort, hclosed, hfits, hputs, hworking⟩ := placeFile_eq_ok h
  have hwalk := htargets.walk_put hshort hfits hputs hworking
  exact readFile_of_walk htargets.accepted hwalk hclosed hputs.same

end Disk

end DeclaredSource.Storage
