import DeclaredSource.Proofs.Storage.FailedWrites

/-!
# What a write changes

A write that succeeds changes what stands under one name. Besides that there are only directories
that are new: those that the path of the file, as it is spelled, goes through before its last name.
The contents are staged in a file of their own on the way, and nothing of that file is left.
-/

namespace DeclaredSource.Storage

open Storage.Path FileTree

namespace Path

variable {path : Path}

theorem EndsInName.body (h : path.EndsInName) :
    ∃ init last, path.body = init ++ [last] ∧ isIdle last = false := by
  obtain ⟨init, last, hpieces, hlast⟩ := h
  rw [pieces_eq] at hpieces
  rcases List.eq_nil_or_concat' path.body with hnone | ⟨inner, final, hbody⟩
  · -- What stands before the body names nothing.
    rw [hnone, List.append_nil] at hpieces
    have hmem : last ∈ path.anchor.pieces := by
      rw [hpieces]
      exact List.mem_append_right init List.mem_cons_self
    have hidle : ∀ piece ∈ path.anchor.pieces, isIdle piece = true := by
      cases path.anchor <;> decide
    rw [hidle last hmem] at hlast
    cases hlast
  · rw [hbody, ← List.append_assoc] at hpieces
    obtain ⟨rfl, -⟩ := List.cons.inj (List.append_inj' hpieces rfl).2
    exact ⟨inner, final, hbody, hlast⟩

/-- The parent goes through no more than what is before the last name. -/
theorem EndsInName.parent (h : path.EndsInName) :
    ∃ parent, path.parent? = some parent ∧ parent.names <+: path.names.dropLast := by
  obtain ⟨init, last, hbody, hlast⟩ := h.body
  have hwhole : dropIdleEnd (init ++ [last]) = init ++ [last] :=
    List.rdropWhile_concat_neg isIdle init last (by simp [hlast])
  have hparent : path.parent? = some (assemble path.anchor (dropIdleEnd init)) := by
    rw [parent?, hbody, hwhole]
    split
    · next hnil => exact absurd hnil (by simp)
    · rw [List.dropLast_concat]
  have hne : last ≠ "" := by
    rintro rfl
    cases hlast
  have hpieces : path.pieces = path.anchor.pieces ++ init ++ [last] := by
    rw [pieces_eq, hbody, List.append_assoc]
  refine ⟨_, hparent, ?_⟩
  rw [names_assemble_eq, names_of_concat hpieces hne, List.dropLast_concat]
  exact ((List.prefix_append_right_inj _).2 (dropIdleEnd_within init)).filter _

end Path

namespace Disk

variable {disk between changed : Disk} {path directory : Path} {outer names : List String}
  {name : String}

theorem Targets.endsInName (h : disk.Targets path outer name) (closed : path.endsOpen = false) :
    path.EndsInName := by
  rcases List.eq_nil_or_concat' path.pieces with hnone | ⟨init, last, hpieces⟩
  · have hnames := h.names
    simp [Path.names, hnone] at hnames
  · have hempty : last ≠ "" := by simpa [endsOpen, hpieces] using closed
    have hnames := (names_of_concat hpieces hempty).symm.trans h.names
    obtain ⟨rfl, -⟩ := List.cons.inj (List.append_inj' hnames rfl).2
    exact ⟨init, last, hpieces, by simp [isIdle, hempty, h.point]⟩

/-- On the way to the last name of a path there are only directories. -/
theorem Targets.lookup_onWay (h : disk.Targets path outer name)
    (habsolute : directory.isAbsolute = path.isAbsolute)
    (hbefore : directory.names <+: path.names.dropLast) (hway : disk.OnWay directory names) :
    disk.tree.lookup names = some .directory := by
  obtain ⟨pieces, hpieces, hwalk⟩ := hway
  obtain ⟨rest, hrest⟩ := hpieces.trans hbefore
  have hstart : disk.start directory = disk.start path := by rw [start, start, habsolute]
  have houter := h.walk
  rw [← hrest] at houter
  rw [hstart] at hwalk
  obtain ⟨next, hnext, hthere⟩ := walk_append_eq_ok.1 houter
  obtain rfl := Except.ok.inj (hwalk.symm.trans hnext)
  have hopen : disk.tree.isFile (under names) = false := by
    cases rest with
    | nil =>
      have hsame : under names = under outer := Except.ok.inj hthere
      rw [hsame]
      exact h.directory
    | cons piece rest =>
      -- Whatever the next step is, it is not made from a file.
      obtain ⟨further, henters, -⟩ := walk_cons_eq_ok.1 hthere
      cases henters with
      | here directory => exact directory
      | out directory => exact directory
      | into directory => exact directory
  exact walk_grounded (disk.grounded_start path) hwalk hopen

section

variable {entry : Entry} (h : Lays directory disk between)
  (hputs : Puts between.tree changed.tree (outer ++ [name]) (some entry))

include h hputs

theorem Lays.file_iff (hother : names ≠ outer ++ [name]) (contents : ByteArray) :
    changed.tree.lookup names = some (.file contents) ↔
      disk.tree.lookup names = some (.file contents) := by
  rw [hputs.other hother]
  refine ⟨fun hbetween ↦ ?_, h.lookup⟩
  by_contra hnew
  obtain ⟨hlaid, -⟩ := h.laid names (fun hsame ↦ hnew (hsame ▸ hbetween))
  cases hlaid.symm.trans hbetween

theorem Lays.directory_iff (htargets : between.Targets path outer name)
    (hfits : between.tree.lookup (outer ++ [name]) ≠ some .directory)
    (hworking : changed.workingDirectory = between.workingDirectory)
    (hentry : entry ≠ .directory) (habsolute : directory.isAbsolute = path.isAbsolute)
    (hbefore : directory.names <+: path.names.dropLast) :
    changed.tree.lookup names = some .directory ↔
      disk.tree.lookup names = some .directory ∨ changed.OnWay directory names := by
  have hkeeps := keeps_of_puts hputs hfits
  constructor
  · intro hdirectory
    have hother : names ≠ outer ++ [name] := by
      rintro rfl
      exact hentry (Option.some.inj (hputs.same.symm.trans hdirectory))
    rw [hputs.other hother] at hdirectory
    by_cases hsame : between.tree.lookup names = disk.tree.lookup names
    · exact .inl (hsame ▸ hdirectory)
    · exact .inr ((h.laid names hsame).2.kept hkeeps hworking)
  · rintro (hdirectory | hway)
    · exact hkeeps.directory names.reverse (h.lookup hdirectory)
    · exact (htargets.kept hkeeps hworking).lookup_onWay habsolute hbefore hway

end

end Disk

namespace Store

open Disk

variable {store : Store} {filename contents : String} {disk changed : Disk} {path directory : Path}
  {file : List String}

/-- What a write that succeeds has made of a disk. The directories are those that were there and
those that the parent of the path goes through, the ones that it climbs out of among them. -/
structure Written (store : Store) (filename contents : String) (disk changed : Disk)
    (directory : Path) (file : List String) : Prop where
  parent : (store.resolve filename).parent? = some directory
  located : changed.locate (store.resolve filename) = .ok (under file)
  readBack : run (store.read filename) changed = (.ok contents, changed)
  files : ∀ names, names ≠ file → ∀ bytes,
    changed.tree.lookup names = some (.file bytes) ↔ disk.tree.lookup names = some (.file bytes)
  directories : ∀ names, changed.tree.lookup names = some .directory ↔
    disk.tree.lookup names = some .directory ∨ changed.OnWay directory names
  workingDirectory : changed.workingDirectory = disk.workingDirectory
  /-- However the file is named that the contents are staged in, replacing the target step by step
  comes to the same disk. -/
  staged : ∃ between, Lays directory disk between ∧
    ∀ name, between.Fresh (store.resolve filename) name →
      between.replaceInSteps name directory (store.resolve filename) contents.toUTF8 =
        (.ok (), changed)

theorem written (h : run (store.write filename contents) disk = (.ok path, changed)) :
    ∃ directory file, store.Written filename contents disk changed directory file := by
  obtain ⟨-, between, hlays, hreplace⟩ := write_eq_made (makeDirectories_lays _) h
  obtain ⟨outer, name, htargets, hshort, hclosed, hfits, hputs, hworking⟩ :=
    placeFile_eq_ok (replaceFile_eq_ok hreplace).2
  obtain ⟨directory, hparent, hbefore⟩ := (htargets.endsInName hclosed).parent
  rw [directoryOf, hparent, Option.getD_some] at hlays hreplace
  have hwalk := htargets.walk_put hshort hfits hputs hworking
  exact ⟨directory, outer ++ [name], {
    parent := hparent
    located := locate_of_walk htargets.accepted hwalk hclosed
    readBack := read_ok (readFile_of_write h)
    files := fun names hother bytes ↦ hlays.file_iff hputs hother bytes
    directories := fun names ↦ hlays.directory_iff hputs htargets hfits hworking (by simp)
      (opens_of_parent? hparent).absolute hbefore
    workingDirectory := hworking.trans hlays.workingDirectory
    staged := by
      refine ⟨between, hlays, fun staging hfresh ↦ ?_⟩
      rw [replaceInSteps_eq hfresh]
      exact change_ok hreplace }⟩

/-- A write that succeeds answers the path of the file and changes nothing but the file and the
directories that were missing on the way to it. -/
theorem write_changes_target_only
    (h : run (store.write filename contents) disk = (.ok path, changed)) :
    path = store.resolve filename ∧
      ∃ directory file, store.Written filename contents disk changed directory file :=
  ⟨(write_eq_made (makeDirectories_extends _) h).1, written h⟩

/-- A relative path that climbs out of a directory that is missing, next to another file. -/
theorem write_changes_target_beside_other :
    let store : Store := ⟨Path.ofString "out"⟩
    let disk := (run (store.write "other.go" "package other\n") bare).2
    let changed := (run (store.write "missing/../a/.//lib.go" "package lib\n") disk).2
    (∃ directory file, store.Written "missing/../a/.//lib.go" "package lib\n" disk changed
      directory file) ∧
      disk.tree.lookup ["out", "missing"] = none ∧
      changed.tree.lookup ["out", "missing"] = some .directory ∧
      changed.tree.lookup ["out", "a", "lib.go"] = some (.file "package lib\n".toUTF8) := by
  intro store disk changed
  have hwrite : run (store.write "missing/../a/.//lib.go" "package lib\n") disk =
      (.ok (store.resolve "missing/../a/.//lib.go"), changed) :=
    run_eq_of_result (by decide +kernel)
  exact ⟨(write_changes_target_only hwrite).2, by decide +kernel, by decide +kernel,
    by decide +kernel⟩

end Store

end DeclaredSource.Storage
