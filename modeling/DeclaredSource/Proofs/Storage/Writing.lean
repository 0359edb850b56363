import DeclaredSource.Proofs.Storage.Effects
import DeclaredSource.Proofs.Storage.StoreRuns
import Mathlib.Order.Defs.Unbundled

/-!
# Writing a file

Whatever the path, making directories only adds to the disk, so a write that succeeds changes
nothing that was there but the file it puts, and what was written is read back. A path can lead to a
file once its directories are made although it led nowhere before: this takes a climb out of a
directory that was missing.
-/

namespace DeclaredSource.Storage

open Storage.Path FileTree

namespace Disk

variable {α β : Type} {disk between changed : Disk} {path : Path} {names : List String}

/-- Everything is still there, and paths start where they started. -/
structure Extends (disk changed : Disk) : Prop where
  grows : Grows disk.tree changed.tree
  workingDirectory : changed.workingDirectory = disk.workingDirectory

theorem Extends.refl (disk : Disk) : Extends disk disk :=
  ⟨fun _ _ hfound ↦ hfound, rfl⟩

theorem Extends.trans (h : Extends disk between) (h' : Extends between changed) :
    Extends disk changed where
  grows := fun place entry hfound ↦ h'.grows place entry (h.grows place entry hfound)
  workingDirectory := h'.workingDirectory.trans h.workingDirectory

theorem Extends.lookup (h : Extends disk changed) {entry : Entry}
    (hfound : disk.tree.lookup names = some entry) : changed.tree.lookup names = some entry :=
  h.grows names.reverse entry hfound

/-- A new entry is added where nothing was. -/
theorem extends_of_puts {entry : Entry} (hputs : Puts disk.tree changed.tree names (some entry))
    (hnew : disk.tree.lookup names = none)
    (hworking : changed.workingDirectory = disk.workingDirectory) : Extends disk changed where
  workingDirectory := hworking
  grows := by
    intro place found hfound
    have hother : place.reverse ≠ names := by
      rintro rfl
      rw [FileTree.lookup, List.reverse_reverse, hfound] at hnew
      cases hnew
    have hsame := hputs.other hother
    rw [FileTree.lookup, FileTree.lookup, List.reverse_reverse] at hsame
    exact hsame.trans hfound

theorem makeDirectory_extends (h : disk.makeDirectory path = .ok changed) :
    Extends disk changed := by
  obtain ⟨outer, name, -, -, hnew, hputs, hworking⟩ := makeDirectory_eq_ok h
  exact extends_of_puts hputs hnew hworking

/-- Whatever the program comes to, it takes a disk to one that it is related to. -/
def Takes (relation : Disk → Disk → Prop) (program : StateM Disk α) : Prop :=
  ∀ disk, relation disk (program disk).2

section Takes

variable {relation : Disk → Disk → Prop} [IsPreorder Disk relation]

theorem takes_pure (value : α) : Takes relation (pure value) :=
  refl_of relation

theorem Takes.bind {program : StateM Disk α} {next : α → StateM Disk β}
    (h : Takes relation program) (hnext : ∀ value, Takes relation (next value)) :
    Takes relation (program >>= next) :=
  fun disk ↦ trans_of relation (h disk) (hnext _ _)

theorem makeDirectory_takes
    (hmake : ∀ disk changed, disk.makeDirectory path = .ok changed → relation disk changed) :
    Takes relation (Files.makeDirectory path : StateM Disk _) := by
  intro disk
  have hrun : (Files.makeDirectory path : StateM Disk _) disk =
      Disk.change (·.makeDirectory path) disk := rfl
  cases hresult : disk.makeDirectory path with
  | ok changed =>
    rw [hrun, change_ok hresult]
    exact hmake disk changed hresult
  | error cause =>
    rw [hrun, change_error hresult]
    exact refl_of relation disk

theorem tolerate_takes (path : Path) (result : Except FileError Unit) :
    Takes relation (Files.makeChain.tolerate path result : StateM Disk _) := by
  have hlook : Takes relation (Files.isDirectory path : StateM Disk _) := by
    have hread : Takes relation (Files.readFile path : StateM Disk _) := refl_of relation
    unfold Files.isDirectory
    apply hread.bind
    intro found
    split <;> exact takes_pure _
  cases result with
  | ok value => exact takes_pure _
  | error cause =>
    apply hlook.bind
    intro found
    split <;> exact takes_pure _

/-- What making one directory comes to, making a chain of them comes to. -/
theorem makeChain_takes {paths : List Path}
    (hmake : ∀ path ∈ paths, ∀ disk changed, disk.makeDirectory path = .ok changed →
      relation disk changed) : Takes relation (Files.makeChain paths : StateM Disk _) := by
  induction paths with
  | nil => exact takes_pure _
  | cons path outer ih =>
    have hpath : Takes relation (Files.makeDirectory path : StateM Disk _) :=
      makeDirectory_takes (hmake path List.mem_cons_self)
    have houter := ih fun other hother ↦ hmake other (List.mem_cons_of_mem path hother)
    rw [Files.makeChain]
    split
    · exact takes_pure _
    apply hpath.bind
    intro made
    split
    · exact takes_pure _
    · apply houter.bind
      intro madeOuter
      split
      · exact takes_pure _
      · exact hpath.bind (tolerate_takes path)
    · exact tolerate_takes path _

end Takes

instance : IsPreorder Disk Extends where
  refl := .refl
  trans _ _ _ := .trans

theorem makeDirectories_extends (path : Path) :
    Takes Extends (Files.makeDirectories path : StateM Disk _) :=
  makeChain_takes fun _ _ _ _ ↦ makeDirectory_extends

/-- The path goes out only of what is there: past what leads somewhere it does not climb. -/
def ClimbsWithin (disk : Disk) (path : Path) : Prop :=
  ∃ present rest standpoint, path.names = present ++ rest ∧
    disk.tree.walk (disk.start path) present = .ok standpoint ∧ ".." ∉ rest

/-- Adding to the disk does not make such a path lead to what was there before. -/
theorem ClimbsWithin.led (h : disk.ClimbsWithin path) (hextends : Extends disk changed)
    (hwalk : changed.tree.walk (changed.start path) path.names = .ok (under names))
    (hfound : disk.tree.lookup names ≠ none) :
    disk.tree.walk (disk.start path) path.names = .ok (under names) := by
  obtain ⟨present, rest, standpoint, hnames, hpresent, hlevel⟩ := h
  rw [start_of_workingDirectory hextends.workingDirectory, hnames] at hwalk
  obtain ⟨next, hnext, hrest⟩ := walk_append_eq_ok.1 hwalk
  have hkept := walk_kept hextends.grows.keeps (disk.grounded_start path) hpresent
  obtain rfl := Except.ok.inj (hkept.symm.trans hnext)
  rw [hnames]
  exact walk_append_eq_ok.2
    ⟨standpoint, hpresent, walk_before hextends.grows hlevel hrest hfound⟩

end Disk

namespace Store

open Disk

variable {store : Store} {filename contents : String} {disk changed : Disk} {path : Path}

theorem makeDirectories_eq_ok {relation : Disk → Disk → Prop} {directory : Path} {value : Unit}
    (htakes : Takes relation (Files.makeDirectories directory : StateM Disk _))
    (h : run (onPath .createDirectory directory (Files.makeDirectories directory)) disk =
      (.ok value, changed)) : relation disk changed := by
  have hmade := htakes disk
  cases hmake : (Files.makeDirectories directory : StateM Disk _) disk with
  | mk result between =>
    rw [hmake] at hmade
    cases result with
    | ok value =>
      rw [run_onPath_ok hmake] at h
      cases h
      exact hmade
    | error cause =>
      rw [run_onPath_error hmake] at h
      cases h

theorem replace_eq_ok {directory : Path} {bytes : ByteArray} {value : Unit}
    (h : run (Store.replace directory path bytes) disk = (.ok value, changed)) :
    disk.replaceFile directory path bytes = .ok changed := by
  cases hreplace : disk.replaceFile directory path bytes with
  | ok between =>
    rw [run_replace_ok hreplace] at h
    cases h
    rfl
  | error cause =>
    rw [run_replace_error hreplace] at h
    cases h

/-- A write that succeeds has made directories, and has then replaced the file. -/
theorem write_eq_made {relation : Disk → Disk → Prop}
    (htakes : Takes relation
      (Files.makeDirectories (store.directoryOf (store.resolve filename)) : StateM Disk _))
    (h : run (store.write filename contents) disk = (.ok path, changed)) :
    path = store.resolve filename ∧ ∃ between, relation disk between ∧
      between.replaceFile (store.directoryOf (store.resolve filename)) (store.resolve filename)
        contents.toUTF8 = .ok changed := by
  unfold Store.write at h
  obtain ⟨_, between, hmake, h⟩ := run_bind_eq_ok.1 h
  obtain ⟨_, _, hreplace, hpure⟩ := run_bind_eq_ok.1 h
  cases hpure
  exact ⟨rfl, between, makeDirectories_eq_ok htakes hmake, replace_eq_ok hreplace⟩

theorem write_eq_replaced (h : run (store.write filename contents) disk = (.ok path, changed)) :
    path = store.resolve filename ∧ ∃ between, Extends disk between ∧
      between.replaceFile (store.directoryOf (store.resolve filename)) (store.resolve filename)
        contents.toUTF8 = .ok changed :=
  write_eq_made (makeDirectories_extends _) h

theorem write_eq_ok (h : run (store.write filename contents) disk = (.ok path, changed)) :
    ∃ between, Extends disk between ∧
      between.placeFile (store.resolve filename) contents.toUTF8 = .ok changed := by
  obtain ⟨-, between, hextends, hreplace⟩ := write_eq_replaced h
  exact ⟨between, hextends, (replaceFile_eq_ok hreplace).2⟩

/-- Writing does not move the working directory. -/
theorem write_workingDirectory
    (h : run (store.write filename contents) disk = (.ok path, changed)) :
    changed.workingDirectory = disk.workingDirectory := by
  obtain ⟨between, hextends, hplace⟩ := write_eq_ok h
  obtain ⟨outer, name, -, -, -, -, -, hworking⟩ := placeFile_eq_ok hplace
  exact hworking.trans hextends.workingDirectory

/-- What was written is read back. -/
theorem readFile_of_write (h : run (store.write filename contents) disk = (.ok path, changed)) :
    changed.readFile (store.resolve filename) = .ok contents.toUTF8 := by
  obtain ⟨between, -, hplace⟩ := write_eq_ok h
  exact readFile_of_placeFile hplace

/-- A write changes nothing that was there but what it puts the file in the place of. If the path
was read as missing then that was nothing, unless the path climbs out of what was missing. -/
theorem write_keeps (h : run (store.write filename contents) disk = (.ok path, changed)) :
    ∃ file, changed.locate (store.resolve filename) = .ok (under file) ∧
      (∀ names entry, names ≠ file → disk.tree.lookup names = some entry →
        changed.tree.lookup names = some entry) ∧
      (disk.readFile (store.resolve filename) = .error .notFound →
        disk.ClimbsWithin (store.resolve filename) → disk.tree.lookup file = none) := by
  obtain ⟨between, hextends, hplace⟩ := write_eq_ok h
  obtain ⟨outer, name, htargets, hshort, hclosed, hfits, hputs, hworking⟩ := placeFile_eq_ok hplace
  have hwalk := htargets.walk_put hshort hfits hputs hworking
  refine ⟨outer ++ [name], locate_of_walk htargets.accepted hwalk hclosed, ?_, ?_⟩
  · intro names entry hother hfound
    exact (hputs.other hother).trans (hextends.lookup hfound)
  · intro hmissing hclimbs
    -- The path would have led there before the directories were made, and reading found nothing.
    by_contra hfound
    obtain ⟨entry, hentry⟩ := Option.ne_none_iff_exists'.1 hfound
    have hbetween : between.tree.lookup (outer ++ [name]) ≠ none := by
      rw [hextends.lookup hentry]
      simp
    have hled := hclimbs.led hextends (htargets.walk_names hshort hbetween) hfound
    exact hfound (lookup_of_readFile_notFound hmissing htargets.accepted hled hclosed)

end Store

end DeclaredSource.Storage
