import DeclaredSource.Proofs.Storage.LevelPath
import DeclaredSource.Proofs.Storage.Staging
import DeclaredSource.Proofs.Storage.Writing

/-!
# Writes that fail

A write can fail before its directories are made, in the middle of making them, or after, when the
file cannot be put in its place. It never comes to more than some of those directories: whatever is
new is a directory that the spelled path goes through, and everything else is as it was.
-/

namespace DeclaredSource.Storage

open Storage.Path FileTree

namespace Path

variable {path parent ancestor : Path} {anchor : Anchor} {body : List String}

/-- The other path goes on from where the path leads. -/
structure Opens (path other : Path) : Prop where
  names : path.names <+: other.names
  absolute : path.isAbsolute = other.isAbsolute

theorem Opens.refl (path : Path) : Opens path path :=
  ⟨List.prefix_refl _, rfl⟩

theorem Opens.trans (h : Opens ancestor parent) (h' : Opens parent path) : Opens ancestor path :=
  ⟨h.names.trans h'.names, h.absolute.trans h'.absolute⟩

theorem isAbsolute_eq (path : Path) : path.isAbsolute = decide (path.anchor = .root) := by
  rw [anchor]
  split
  · next h => rw [h]; rfl
  next h =>
  rw [Bool.eq_false_iff.2 h]
  split <;> rfl

theorem pieces_eq (path : Path) : path.pieces = path.anchor.pieces ++ path.body := by
  rw [body, anchor]
  split
  · next h =>
    obtain ⟨first, rest, rfl⟩ := exists_of_isAbsolute h
    rfl
  split
  · next h =>
    obtain ⟨rest, hpieces⟩ := List.head?_eq_some_iff.1 h
    rw [hpieces]
    rfl
  · rfl

/-- What is put together from the first pieces of a path starts where the path starts. -/
theorem opens_assemble (path : Path) (h : body <+: path.body) :
    Opens (assemble path.anchor body) path where
  names := by
    rw [names_assemble_eq, Path.names, pieces_eq path]
    exact ((List.prefix_append_right_inj _).2 h).filter _
  absolute := by
    rw [isAbsolute_eq path]
    cases hanchor : path.anchor with
    | root => cases body <;> simp [assemble, rootPath, isAbsolute]
    | here => simp [assemble, isAbsolute]
    | none =>
      -- Pieces that are absolute by themselves would make the path absolute.
      rw [decide_eq_false (by decide), Bool.eq_false_iff]
      intro habsolute
      obtain ⟨first, rest, heq⟩ := exists_of_isAbsolute habsolute
      have hbody : body = "" :: first :: rest := by
        cases body with
        | nil => cases heq
        | cons piece body => exact congrArg Path.pieces heq
      obtain ⟨inner, hinner⟩ := h
      have hpath : path.isAbsolute = true := by
        rw [isAbsolute, pieces_eq, hanchor, ← hinner, hbody]
        simp [Anchor.pieces]
      rw [isAbsolute_eq, hanchor] at hpath
      cases hpath

theorem opens_of_parent? (h : path.parent? = some parent) : Opens parent path := by
  rw [parent?] at h
  split at h
  · split at h
    · next hanchor =>
      cases h
      exact ⟨List.nil_prefix, by rw [isAbsolute_eq path, hanchor]; rfl⟩
    · cases h
  · cases h
    apply opens_assemble
    exact (dropIdleEnd_within _).trans ((List.dropLast_prefix _).trans (dropIdleEnd_within _))

theorem opens_of_mem_ancestors (h : ancestor ∈ path.ancestors) : Opens ancestor path := by
  have hwithin (count : Nat) (path : Path) (h : ancestor ∈ path.ancestorsWithin count) :
      Opens ancestor path := by
    induction count generalizing path with
    | zero =>
      rw [List.mem_singleton.1 h]
      exact .refl path
    | succ count ih =>
      rw [ancestorsWithin] at h
      rcases List.mem_cons.1 h with rfl | houter
      · exact .refl _
      · split at houter
        · next parent hparent => exact (ih parent houter).trans (opens_of_parent? hparent)
        · cases houter
  exact hwithin _ path h

end Path

namespace Disk

variable {disk between changed : Disk} {path outer : Path} {names : List String}

/-- The names are where the path leads, or where some of its pieces from the first do. -/
def OnWay (disk : Disk) (path : Path) (names : List String) : Prop :=
  ∃ pieces, pieces <+: path.names ∧
    disk.tree.walk (disk.start path) pieces = .ok (under names)

theorem OnWay.of_opens (h : disk.OnWay outer names) (hopens : Opens outer path) :
    disk.OnWay path names := by
  obtain ⟨pieces, hpieces, hwalk⟩ := h
  have hstart : disk.start path = disk.start outer := by rw [start, start, hopens.absolute]
  exact ⟨pieces, hpieces.trans hopens.names, hstart ▸ hwalk⟩

theorem OnWay.kept (h : disk.OnWay path names) (hkeeps : Keeps disk.tree changed.tree)
    (hworking : changed.workingDirectory = disk.workingDirectory) : changed.OnWay path names := by
  obtain ⟨pieces, hpieces, hwalk⟩ := h
  refine ⟨pieces, hpieces, ?_⟩
  rw [start_of_workingDirectory hworking]
  exact walk_kept hkeeps (disk.grounded_start path) hwalk

/-- Whatever is new is a directory that the path goes through. -/
structure Lays (path : Path) (disk changed : Disk) : Prop extends Extends disk changed where
  laid : ∀ names, changed.tree.lookup names ≠ disk.tree.lookup names →
    changed.tree.lookup names = some .directory ∧ changed.OnWay path names

theorem Lays.refl (path : Path) (disk : Disk) : Lays path disk disk where
  toExtends := .refl disk
  laid _ hnew := absurd rfl hnew

theorem Lays.trans (h : Lays path disk between) (h' : Lays path between changed) :
    Lays path disk changed where
  toExtends := h.toExtends.trans h'.toExtends
  laid := by
    intro names hnew
    by_cases hlater : changed.tree.lookup names = between.tree.lookup names
    · rw [hlater] at hnew ⊢
      obtain ⟨hdirectory, hway⟩ := h.laid names hnew
      exact ⟨hdirectory, hway.kept h'.grows.keeps h'.workingDirectory⟩
    · exact h'.laid names hlater

instance (path : Path) : IsPreorder Disk (Lays path) where
  refl := .refl path
  trans _ _ _ := .trans

theorem Lays.of_opens (h : Lays outer disk changed) (hopens : Opens outer path) :
    Lays path disk changed where
  toExtends := h.toExtends
  laid names hnew := (h.laid names hnew).imp_right (·.of_opens hopens)

theorem makeDirectory_lays (h : disk.makeDirectory path = .ok changed) :
    Lays path disk changed where
  toExtends := makeDirectory_extends h
  laid := by
    obtain ⟨outer, name, htargets, hshort, hnew, hputs, hworking⟩ := makeDirectory_eq_ok h
    intro names hother
    obtain rfl : names = outer ++ [name] := by
      by_contra hne
      exact hother (hputs.other hne)
    exact ⟨hputs.same, path.names, List.prefix_refl _,
      htargets.walk_put hshort (by rw [hnew]; simp) hputs hworking⟩

theorem makeDirectories_lays (path : Path) :
    Takes (Lays path) (Files.makeDirectories path : StateM Disk _) :=
  makeChain_takes fun _ hancestor _ _ hmake ↦
    (makeDirectory_lays hmake).of_opens (opens_of_mem_ancestors hancestor)

end Disk

namespace Store

open Disk

variable {store : Store} {filename contents : String} {disk changed : Disk} {path directory : Path}
  {bytes : ByteArray} {error : StoreError}

/-- A write fails in making directories or, once they are there, in replacing the file. -/
inductive StopsAt (store : Store) (filename contents : String) (changed : Disk) :
    StoreError → Prop
  | making (cause : FileError) : StopsAt store filename contents changed
    ⟨.createDirectory, store.directoryOf (store.resolve filename), cause⟩
  | replacing (cause : ReplaceError)
    (failed : changed.replaceFile (store.directoryOf (store.resolve filename))
      (store.resolve filename) contents.toUTF8 = .error cause) :
    StopsAt store filename contents changed
      (replaceError (store.directoryOf (store.resolve filename)) (store.resolve filename) cause)

theorem replaceError_inj {cause cause' : ReplaceError}
    (h : replaceError directory path cause = replaceError directory path cause') :
    cause = cause' := by
  cases cause <;> cases cause' <;> cases h <;> rfl

theorem replace_eq_error
    (h : run (Store.replace directory path bytes) disk = (.error error, changed)) :
    changed = disk ∧ ∃ cause, disk.replaceFile directory path bytes = .error cause ∧
      error = replaceError directory path cause := by
  cases hreplace : disk.replaceFile directory path bytes with
  | ok between =>
    rw [run_replace_ok hreplace] at h
    cases h
  | error cause =>
    rw [run_replace_error hreplace] at h
    cases h
    exact ⟨rfl, cause, rfl, rfl⟩

/-- A write that fails leaves no more than new directories on the way to where the file would be. -/
theorem write_eq_error (h : run (store.write filename contents) disk = (.error error, changed)) :
    Lays (store.directoryOf (store.resolve filename)) disk changed ∧
      store.StopsAt filename contents changed error := by
  have hlays := makeDirectories_lays (store.directoryOf (store.resolve filename)) disk
  unfold Store.write at h
  cases hmake : (Files.makeDirectories (store.directoryOf (store.resolve filename)) :
      StateM Disk _) disk with
  | mk result between =>
    rw [hmake] at hlays
    cases result with
    | error cause =>
      have hmade := run_onPath_error hmake .createDirectory
        (store.directoryOf (store.resolve filename))
      dsimp only at h
      rw [run_bind_error hmade] at h
      cases h
      exact ⟨hlays, .making cause⟩
    | ok value =>
      have hmade := run_onPath_ok hmake .createDirectory
        (store.directoryOf (store.resolve filename))
      dsimp only at h
      rw [run_bind_ok hmade] at h
      rcases run_bind_eq_error.1 h with hreplace | ⟨_, _, _, hpure⟩
      · obtain ⟨rfl, cause, hfailed, rfl⟩ := replace_eq_error hreplace
        exact ⟨hlays, .replacing cause hfailed⟩
      · cases hpure

end Store

end DeclaredSource.Storage
