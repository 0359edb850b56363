import DeclaredSource.Proofs.Storage.Effects
import DeclaredSource.Proofs.Storage.StoreRuns

/-!
# Replacing a file step by step

A file is replaced in steps: its contents are put into a new file under a name of its own, which
then takes the target's place, or is discarded when it cannot. Whatever that name is, as long as it
is not in use and not on the way to the target, the new file gets in the way of nothing. So the
steps come to what replacing a file as a whole comes to, and when one of them fails nothing is left
behind.
-/

namespace DeclaredSource.Storage

open Storage.Path FileTree

namespace Entries

theorem without_eq_self {entries : Entries} {place : Location} (h : entries.get? place = none) :
    entries.without place = entries := by
  induction entries with
  | nil => rfl
  | cons item rest ih =>
    obtain ⟨key, entry⟩ := item
    rw [get?] at h
    split at h
    · cases h
    · next hkey => rw [without, if_neg hkey, ih h]

theorem without_comm (entries : Entries) (place other : Location) :
    (entries.without place).without other = (entries.without other).without place := by
  induction entries with
  | nil => rfl
  | cons item rest ih =>
    obtain ⟨key, entry⟩ := item
    grind [without]

end Entries

namespace Disk

variable {disk staged changed : Disk} {directory path outer : Path} {place : Location}
  {name : String} {contents : ByteArray} {cause : FileError}

theorem eq_of_entries (hentries : disk.tree.entries = changed.tree.entries)
    (hworking : disk.workingDirectory = changed.workingDirectory) : disk = changed := by
  obtain ⟨⟨entries, _⟩, workingDirectory, _⟩ := disk
  obtain ⟨⟨entries', _⟩, workingDirectory', _⟩ := changed
  dsimp only at hentries hworking
  subst hentries hworking
  rfl

/-- Makes a file where there is no entry. -/
def createFile (disk : Disk) (path : Path) (contents : ByteArray) : Except FileError Disk :=
  match disk.target path with
  | .error cause => .error cause
  | .ok none => .error .alreadyExists
  | .ok (some (place, name)) =>
    if longestName < name.utf8ByteSize then .error .nameTooLong
    else if disk.tree.find (name :: place) ≠ none then .error .alreadyExists
    else disk.put place name (.file contents)

/-- A file takes the target's place and leaves its own. -/
def moveFile (disk : Disk) (source path : Path) : Except FileError Disk :=
  match disk.readFile source with
  | .error cause => .error cause
  | .ok contents =>
    match disk.placeFile path contents with
    | .error cause => .error cause
    | .ok changed => changed.removeFile source

/-- Removes a file if that is possible. -/
def discardFile (disk : Disk) (path : Path) : Disk :=
  match disk.removeFile path with
  | .error _ => disk
  | .ok changed => changed

def replaceInSteps (disk : Disk) (name : String) (directory path : Path) (contents : ByteArray) :
    Except ReplaceError Unit × Disk :=
  match disk.absolute directory with
  | .error cause => (.error (.staging cause), disk)
  | .ok directory =>
    match disk.createFile (directory.join ⟨[name]⟩) contents with
    | .error cause => (.error (.staging cause), disk)
    | .ok staged =>
      match staged.moveFile (directory.join ⟨[name]⟩) path with
      | .error cause => (.error (.placing cause), staged.discardFile (directory.join ⟨[name]⟩))
      | .ok changed => (.ok (), changed)

/-- A name that contents for the target can be staged under: it is as long as such names are, no
entry has it, and the target's path does not go through it. -/
structure Fresh (disk : Disk) (path : Path) (name : String) : Prop where
  nulFree : '\x00' ∉ name.toList
  size : name.utf8ByteSize = stagedName.utf8ByteSize
  unused : ∀ place, disk.tree.find (name :: place) = none
  apart : name ∉ path.names

/-- The location that contents staged in a directory are put in. -/
def stagingPlace (disk : Disk) (directory : Path) : Except FileError Location :=
  match refusal? (directory.join ⟨[stagedName]⟩) with
  | some cause => .error cause
  | none =>
    match disk.tree.walk (disk.start (directory.join ⟨[stagedName]⟩))
        (directory.stem.filter (· ≠ "")) with
    | .error cause => .error cause
    | .ok standpoint =>
      if disk.tree.isFile standpoint then .error .notADirectory
      else if standpoint.removed ≠ 0 then .error .notFound
      else .ok standpoint.place

theorem join_name (directory : Path) (name : String) :
    directory.join ⟨[name]⟩ = ⟨directory.stem ++ [name]⟩ :=
  join_of_relative directory (by simp [isAbsolute])

theorem ne_of_size (size : name.utf8ByteSize = stagedName.utf8ByteSize) (other : String)
    (hother : other.utf8ByteSize ≠ stagedName.utf8ByteSize) : name ≠ other :=
  fun heq ↦ hother (heq ▸ size)

theorem refusal?_join_name (directory : Path) (nulFree : '\x00' ∉ name.toList)
    (size : name.utf8ByteSize = stagedName.utf8ByteSize) :
    refusal? (directory.join ⟨[name]⟩) = refusal? (directory.join ⟨[stagedName]⟩) := by
  have hnul : holdsNul ⟨directory.stem ++ [name]⟩ =
      holdsNul ⟨directory.stem ++ [stagedName]⟩ := by
    have hstaged : '\x00' ∉ stagedName.toList := by decide
    rw [Bool.eq_iff_iff, ← not_iff_not, Bool.not_eq_true, Bool.not_eq_true, holdsNul_eq_false_iff,
      holdsNul_eq_false_iff, List.forall_mem_append, List.forall_mem_append]
    simp [nulFree, hstaged]
  have hsize : (Path.mk (directory.stem ++ [name])).text.utf8ByteSize =
      (Path.mk (directory.stem ++ [stagedName])).text.utf8ByteSize := by
    apply Nat.add_right_cancel
    rw [utf8ByteSize_text (by simp), utf8ByteSize_text (by simp), spelledSize_concat,
      spelledSize_concat, size]
  have hnonempty {last : String} (hlast : last.utf8ByteSize = stagedName.utf8ByteSize) :
      Path.mk (directory.stem ++ [last]) ≠ Path.empty := by
    intro hempty
    have hpieces : directory.stem ++ [last] = [""] := congrArg Path.pieces hempty
    have hends := congrArg List.getLast? hpieces
    rw [List.getLast?_concat] at hends
    exact ne_of_size hlast "" (by decide) (Option.some.inj hends)
  rw [join_name, join_name, refusal?, refusal?, hnul, hsize, if_neg (hnonempty size),
    if_neg (hnonempty rfl)]

theorem target_join_name (disk : Disk) (directory : Path) (nulFree : '\x00' ∉ name.toList)
    (size : name.utf8ByteSize = stagedName.utf8ByteSize) :
    disk.target (directory.join ⟨[name]⟩) =
      (disk.stagingPlace directory).map fun place ↦ some (place, name) := by
  have hpresent := ne_of_size size "" (by decide)
  have hpoint := ne_of_size size "." (by decide)
  have hlevel := ne_of_size size ".." (by decide)
  have hnames : (directory.join ⟨[name]⟩).names = directory.stem.filter (· ≠ "") ++ [name] :=
    names_of_concat (congrArg Path.pieces (join_name directory name)) hpresent
  have hstart : disk.start (directory.join ⟨[name]⟩) =
      disk.start (directory.join ⟨[stagedName]⟩) := by
    rw [start, start, join_name, join_name]
    cases directory.stem <;> simp [isAbsolute]
  rw [target, stagingPlace, refusal?_join_name directory nulFree size, hnames, hstart,
    List.getLast?_concat, List.dropLast_concat]
  cases refusal? (directory.join ⟨[stagedName]⟩) with
  | some cause => rfl
  | none =>
    dsimp only
    cases disk.tree.walk (disk.start (directory.join ⟨[stagedName]⟩))
        (directory.stem.filter (· ≠ "")) with
    | error cause => rfl
    | ok standpoint =>
      dsimp only
      rw [if_neg (not_or.2 ⟨hpoint, hlevel⟩)]
      split
      · rfl
      split <;> rfl

/-- The location and the name that a file is put under. -/
def seat (disk : Disk) (path : Path) : Except FileError (Location × String) :=
  if holdsNul path then .error .invalidArgument
  else
    match disk.target path with
    | .error cause => .error cause
    | .ok none => .error .busy
    | .ok (some (place, name)) =>
      if longestName < name.utf8ByteSize then .error .nameTooLong
      else if path.endsOpen then .error .notADirectory
      else .ok (place, name)

/-- Putting fails for what is a directory, whatever is put. -/
theorem put_error {entry entry' : Entry}
    (hsame : ∀ place, changed.tree.find place = some .directory ↔
      disk.tree.find place = some .directory)
    (h : disk.put place name entry = .error cause) :
    changed.put place name entry' = .error cause := by
  rw [put] at h ⊢
  split at h
  · next fits => rw [dif_pos ((hsame _).2 fits), h]
  next fits =>
  rw [dif_neg (mt (hsame _).1 fits)]
  split at h
  · cases h
  · next parent => rw [dif_neg (mt (hsame _).1 parent), h]

theorem placeFile_eq (disk : Disk) (path : Path) (contents : ByteArray) :
    disk.placeFile path contents =
      (disk.seat path).bind fun seat ↦ disk.put seat.1 seat.2 (.file contents) := by
  rw [placeFile, seat]
  split
  · rfl
  rcases disk.target path with cause | _ | ⟨place, name⟩
  · rfl
  · rfl
  dsimp only
  split
  · rfl
  split <;> rfl

theorem placeFile_error (h : disk.placeFile path contents = .error cause) (bytes : ByteArray) :
    disk.placeFile path bytes = .error cause := by
  rw [placeFile_eq] at h ⊢
  cases hseat : disk.seat path with
  | error cause =>
    rw [hseat] at h
    exact h
  | ok seat =>
    rw [hseat] at h
    exact put_error (fun _ ↦ Iff.rfl) h

theorem mem_names_of_seat {seat : Location × String} (h : disk.seat path = .ok seat) :
    seat.2 ∈ path.names := by
  rw [Disk.seat] at h
  split at h
  · cases h
  split at h
  · cases h
  · cases h
  next htarget =>
  split at h
  · cases h
  split at h
  · cases h
  cases h
  rw [(target_eq_some htarget).names]
  exact List.mem_append_right _ (List.mem_singleton_self _)

/-! ## A disk with one more file -/

/-- There is a file more than on the disk, and nothing else is different. -/
structure Staged (disk staged : Disk) (place : Location) (name : String) (contents : ByteArray) :
    Prop where
  entries : staged.tree.entries.without (name :: place) = disk.tree.entries
  found : staged.tree.find (name :: place) = some (.file contents)
  workingDirectory : staged.workingDirectory = disk.workingDirectory

namespace Staged

variable (h : Staged disk staged place name contents)

include h

theorem find_eq (other : Location) :
    disk.tree.find other = if other = name :: place then none else staged.tree.find other := by
  rw [FileTree.find, ← h.entries, find_drop]
  simp

theorem unused : disk.tree.find (name :: place) = none := by
  rw [h.find_eq, if_pos rfl]

theorem find_other {other : Location} (hother : other ≠ name :: place) :
    staged.tree.find other = disk.tree.find other := by
  rw [h.find_eq, if_neg hother]

theorem keeps : Keeps disk.tree staged.tree := by
  apply Grows.keeps
  intro other entry hfound
  rw [← hfound]
  apply h.find_other
  rintro rfl
  rw [h.unused] at hfound
  cases hfound

theorem directory_iff {other : Location} :
    staged.tree.find other = some .directory ↔ disk.tree.find other = some .directory := by
  by_cases hother : other = name :: place
  · rw [hother, h.found, h.unused]
    simp
  · rw [h.find_other hother]

/-- No walk on the disk comes to where the file is. -/
theorem isFile_eq {standpoint : Standpoint} (hgrounded : disk.tree.Grounded standpoint) :
    staged.tree.isFile standpoint = disk.tree.isFile standpoint := by
  rw [Bool.eq_iff_iff, isFile_eq_true, isFile_eq_true]
  by_cases hplace : standpoint.place = name :: place
  · have hnone : disk.tree.isFile standpoint = false := by
      rw [← Bool.not_eq_true, isFile_eq_true, hplace, h.unused]
      simp
    have hkept := hgrounded hnone
    have hremoved : standpoint.removed ≠ 0 := by
      intro hzero
      rw [Standpoint.kept, hzero, List.drop_zero, hplace, h.unused] at hkept
      cases hkept
    simp [hremoved]
  · rw [h.find_other hplace]

theorem enter_eq {standpoint : Standpoint} (hgrounded : disk.tree.Grounded standpoint)
    {piece : String} (hpiece : piece ≠ name) :
    staged.tree.enter standpoint piece = disk.tree.enter standpoint piece := by
  have hother : piece :: standpoint.place ≠ name :: place :=
    fun heq ↦ hpiece (List.cons.inj heq).1
  rw [FileTree.enter, FileTree.enter, h.isFile_eq hgrounded, h.find_other hother]

theorem walk_eq {standpoint : Standpoint} (hgrounded : disk.tree.Grounded standpoint)
    {pieces : List String} (apart : name ∉ pieces) :
    staged.tree.walk standpoint pieces = disk.tree.walk standpoint pieces := by
  induction pieces generalizing standpoint with
  | nil => rfl
  | cons piece pieces ih =>
    rw [List.mem_cons, not_or] at apart
    rw [walk, walk, h.enter_eq hgrounded (Ne.symm apart.1)]
    cases henter : disk.tree.enter standpoint piece with
    | error cause => rfl
    | ok next => exact ih ((enter_eq_ok.1 henter).grounded hgrounded) apart.2

theorem target_eq (apart : name ∉ path.names) : staged.target path = disk.target path := by
  have hinit : name ∉ path.names.dropLast := fun hmem ↦ apart (List.dropLast_subset _ hmem)
  have hwalk := h.walk_eq (disk.grounded_start path) hinit
  rw [Disk.target, Disk.target, start_of_workingDirectory h.workingDirectory, hwalk]
  split
  · rfl
  split
  · rfl
  cases hstandpoint : disk.tree.walk (disk.start path) path.names.dropLast with
  | error cause => rfl
  | ok standpoint =>
    dsimp only
    rw [h.isFile_eq (walk_grounded (disk.grounded_start path) hstandpoint)]

theorem seat_eq (apart : name ∉ path.names) : staged.seat path = disk.seat path := by
  rw [seat, seat, h.target_eq apart]

/-- A path that leads to the file's name leads there once the file is there. -/
theorem target_self (htarget : disk.target path = .ok (some (place, name))) :
    staged.target path = .ok (some (place, name)) :=
  target_kept htarget h.keeps h.workingDirectory

section

variable {inner : Location} {last : String} {entry : Entry} {bytes : ByteArray}

theorem put_ok (hlast : last ≠ name) (hput : disk.put inner last entry = .ok changed) :
    ∃ after, staged.put inner last entry = .ok after ∧
      Staged changed after place name contents := by
  rw [put] at hput ⊢
  split at hput
  · cases hput
  next fits =>
  split at hput
  · next parent =>
    cases hput
    rw [dif_neg (mt h.directory_iff.1 fits), dif_pos (h.directory_iff.2 parent)]
    have hother : last :: inner ≠ name :: place := fun heq ↦ hlast (List.cons.inj heq).1
    refine ⟨_, rfl, ?_, ?_, h.workingDirectory⟩
    · change Entries.without _ ((last :: inner, entry) :: staged.tree.entries.without _) = _
      rw [Entries.without, if_neg hother, Entries.without_comm, h.entries]
      rfl
    · rw [find_insert, if_neg (Ne.symm hother), h.found]
  · cases hput

theorem placeFile_error (apart : name ∉ path.names)
    (hplace : disk.placeFile path bytes = .error cause) :
    staged.placeFile path bytes = .error cause := by
  rw [placeFile_eq] at hplace ⊢
  rw [h.seat_eq apart]
  cases hseat : disk.seat path with
  | error cause =>
    rw [hseat] at hplace
    exact hplace
  | ok seat =>
    rw [hseat] at hplace
    exact put_error (fun _ ↦ h.directory_iff) hplace

theorem placeFile_ok (apart : name ∉ path.names)
    (hplace : disk.placeFile path bytes = .ok changed) :
    ∃ after, staged.placeFile path bytes = .ok after ∧
      Staged changed after place name contents := by
  rw [placeFile_eq] at hplace ⊢
  rw [h.seat_eq apart]
  cases hseat : disk.seat path with
  | error cause =>
    rw [hseat] at hplace
    cases hplace
  | ok seat =>
    rw [hseat] at hplace
    apply h.put_ok _ hplace
    rintro hlast
    exact apart (hlast ▸ mem_names_of_seat hseat)

end

theorem removeFile (short : name.utf8ByteSize ≤ longestName)
    (htarget : staged.target path = .ok (some (place, name))) (closed : path.endsOpen = false) :
    staged.removeFile path = .ok disk := by
  rw [Disk.removeFile, htarget]
  dsimp only
  rw [if_neg (Nat.not_lt.2 short), closed]
  split
  · next hnone =>
    rw [h.found] at hnone
    cases hnone
  · next hdirectory =>
    rw [h.found] at hdirectory
    cases hdirectory
  · rw [if_neg (by decide)]
    exact congrArg Except.ok (eq_of_entries h.entries h.workingDirectory)

theorem readFile (short : name.utf8ByteSize ≤ longestName)
    (htarget : staged.target path = .ok (some (place, name))) (closed : path.endsOpen = false) :
    staged.readFile path = .ok contents := by
  have htargets := target_eq_some htarget
  have hlookup : staged.tree.lookup (place.reverse ++ [name]) = some (.file contents) := by
    rw [← find_cons, List.reverse_reverse, h.found]
  have hwalk := htargets.walk_names short (by rw [hlookup]; simp)
  exact readFile_of_walk htargets.accepted hwalk closed hlookup

end Staged

namespace Fresh

variable (h : disk.Fresh path name)

include h

theorem short : name.utf8ByteSize ≤ longestName := by
  rw [h.size]
  decide

theorem createFile_error (hplace : disk.stagingPlace directory = .error cause) :
    disk.createFile (directory.join ⟨[name]⟩) contents = .error cause := by
  rw [createFile, target_join_name disk directory h.nulFree h.size, hplace]
  rfl

theorem createFile_missing (hplace : disk.stagingPlace directory = .ok place)
    (hmissing : disk.tree.find place ≠ some .directory) :
    disk.createFile (directory.join ⟨[name]⟩) contents = .error .notFound := by
  rw [createFile, target_join_name disk directory h.nulFree h.size, hplace]
  dsimp only [Except.map]
  rw [if_neg (Nat.not_lt.2 h.short), h.unused, if_neg (by simp), put,
    dif_neg (by rw [h.unused]; simp), dif_neg hmissing]

theorem createFile_ok (hplace : disk.stagingPlace directory = .ok place)
    (hdirectory : disk.tree.find place = some .directory) (contents : ByteArray) :
    ∃ staged, disk.createFile (directory.join ⟨[name]⟩) contents = .ok staged ∧
      Staged disk staged place name contents := by
  have hunused := h.unused place
  have hnew : disk.tree.entries.get? (name :: place) = none := by
    simpa [FileTree.find, Entries.find] using hunused
  rw [createFile, target_join_name disk directory h.nulFree h.size, hplace]
  dsimp only [Except.map]
  rw [if_neg (Nat.not_lt.2 h.short), hunused, if_neg (by simp), put,
    dif_neg (by rw [hunused]; simp), dif_pos hdirectory]
  refine ⟨_, rfl, ?_, ?_, rfl⟩
  · change Entries.without _ ((name :: place, _) :: disk.tree.entries.without _) = _
    rw [Entries.without, if_pos rfl, Entries.without_eq_self hnew, Entries.without_eq_self hnew]
  · rw [find_insert, if_pos rfl]

end Fresh

theorem Staged.discardFile (h : Staged disk staged place name contents)
    (short : name.utf8ByteSize ≤ longestName)
    (htarget : staged.target path = .ok (some (place, name))) (closed : path.endsOpen = false) :
    staged.discardFile path = disk := by
  rw [Disk.discardFile, h.removeFile short htarget closed]

theorem Staged.moveFile_error (h : Staged disk staged place name contents)
    (hfresh : disk.Fresh path name) {source : Path}
    (htarget : staged.target source = .ok (some (place, name))) (closed : source.endsOpen = false)
    (hplace : disk.placeFile path contents = .error cause) :
    staged.moveFile source path = .error cause := by
  rw [moveFile, h.readFile hfresh.short htarget closed]
  dsimp only
  rw [h.placeFile_error hfresh.apart hplace]

theorem Staged.moveFile_ok (h : Staged disk staged place name contents)
    (hfresh : disk.Fresh path name) {source : Path}
    (htarget : disk.target source = .ok (some (place, name))) (closed : source.endsOpen = false)
    (hplace : disk.placeFile path contents = .ok changed) :
    staged.moveFile source path = .ok changed := by
  obtain ⟨after, hafter, hstaged⟩ := h.placeFile_ok hfresh.apart hplace
  obtain ⟨outer, last, -, -, -, hfits, hputs, hworking⟩ := placeFile_eq_ok hplace
  -- The file's own path still leads to it once the other one is there.
  have hkept := target_kept htarget (keeps_of_puts hputs hfits) hworking
  rw [moveFile, h.readFile hfresh.short (h.target_self htarget) closed]
  dsimp only
  rw [hafter]
  dsimp only
  exact hstaged.removeFile hfresh.short (hstaged.target_self hkept) closed

theorem stage_eq {absolute : Path} (h : disk.absolute directory = .ok absolute) :
    disk.stage directory = (disk.stagingPlace absolute).bind fun place ↦
      if disk.tree.find place = some .directory then .ok () else .error .notFound := by
  rw [stage, h]
  dsimp only
  rw [target_join_name disk absolute (by decide) rfl]
  cases disk.stagingPlace absolute <;> rfl

/-- Once the contents are staged, they take the target's place or they are discarded. -/
theorem Fresh.replaceInSteps_of_staged (h : disk.Fresh path name) {absolute : Path}
    (habsolute : disk.absolute directory = .ok absolute)
    (hplace : disk.stagingPlace absolute = .ok place)
    (hdirectory : disk.tree.find place = some .directory) (contents : ByteArray) :
    disk.replaceInSteps name directory path contents =
      match disk.placeFile path contents with
      | .error cause => (.error (.placing cause), disk)
      | .ok changed => (.ok (), changed) := by
  obtain ⟨staged, hcreate, hstaged⟩ := h.createFile_ok hplace hdirectory contents
  have htarget : disk.target (absolute.join ⟨[name]⟩) = .ok (some (place, name)) := by
    rw [target_join_name disk absolute h.nulFree h.size, hplace]
    rfl
  have hclosed : (absolute.join ⟨[name]⟩).endsOpen = false := by
    have hpresent := ne_of_size h.size "" (by decide)
    rw [join_name, endsOpen, List.getLast?_concat]
    simpa using hpresent
  rw [replaceInSteps, habsolute]
  dsimp only
  rw [hcreate]
  dsimp only
  cases hput : disk.placeFile path contents with
  | error cause =>
    rw [hstaged.moveFile_error h (hstaged.target_self htarget) hclosed hput,
      hstaged.discardFile h.short (hstaged.target_self htarget) hclosed]
  | ok changed => rw [hstaged.moveFile_ok h htarget hclosed hput]

/-- Under whatever name the contents are staged, replacing a file in steps comes to replacing it as
a whole. -/
theorem replaceInSteps_eq (h : disk.Fresh path name) (directory : Path) (contents : ByteArray) :
    disk.replaceInSteps name directory path contents =
      (Files.replaceFile directory path contents : StateM Disk _) disk := by
  change _ = Disk.change (·.replaceFile directory path contents) disk
  have hfails {cause : FileError} (hstage : disk.stage directory = .error cause) :
      Disk.change (·.replaceFile directory path contents) disk =
        (.error (.staging cause), disk) := by
    apply change_error
    rw [replaceFile, hstage]
  cases habsolute : disk.absolute directory with
  | error cause => rw [hfails (by rw [stage, habsolute]), replaceInSteps, habsolute]
  | ok absolute =>
    have hstage := stage_eq habsolute
    cases hplace : disk.stagingPlace absolute with
    | error cause =>
      rw [hplace] at hstage
      rw [hfails hstage, replaceInSteps, habsolute]
      dsimp only
      rw [h.createFile_error hplace]
    | ok place =>
      rw [hplace] at hstage
      dsimp only [Except.bind] at hstage
      by_cases hdirectory : disk.tree.find place = some .directory
      · rw [if_pos hdirectory] at hstage
        rw [h.replaceInSteps_of_staged habsolute hplace hdirectory]
        cases hput : disk.placeFile path contents with
        | error cause => rw [change_error (by rw [replaceFile, hstage, hput])]
        | ok changed => rw [change_ok (by rw [replaceFile, hstage, hput])]
      · rw [if_neg hdirectory] at hstage
        rw [hfails hstage, replaceInSteps, habsolute]
        dsimp only
        rw [h.createFile_missing hplace hdirectory]

/-- The root cannot be replaced, and the name that was tried for it is free again. -/
example : bare.Fresh rootPath ".tmpAb3dE9" ∧
    bare.replaceInSteps ".tmpAb3dE9" rootPath rootPath "package lib\n".toUTF8 =
      (.error (.placing .busy), bare) :=
  ⟨⟨by decide, by decide, fun _ ↦ rfl, by decide⟩, rfl⟩

/-- Whether a file can be replaced does not depend on the contents. -/
theorem replaceFile_error {error : ReplaceError}
    (h : disk.replaceFile directory path contents = .error error) (bytes : ByteArray) :
    disk.replaceFile directory path bytes = .error error := by
  rw [replaceFile] at h ⊢
  split at h
  · exact h
  · split at h
    · next hplace =>
      rw [placeFile_error hplace bytes]
      exact h
    · cases h

end Disk

end DeclaredSource.Storage
