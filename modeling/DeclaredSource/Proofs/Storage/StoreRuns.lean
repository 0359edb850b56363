import DeclaredSource.Proofs.Storage.DiskOperations

/-!
# Runs of a store on a disk

What the operations of a store answer on a disk and what they leave there, for a base directory and
a filename that spell names. Writing makes directories of everything on the way and puts the file;
removing takes the file out and then the directories that it leaves empty, as a loop from the
innermost outwards.
-/

namespace DeclaredSource.Storage

open Storage.Path FileTree

namespace Disk

/-- What a program answers on a disk, and the disk that it leaves. -/
def run {ε α : Type} (program : ExceptT ε (StateM Disk) α) (disk : Disk) : Except ε α × Disk :=
  StateT.run (ExceptT.run program) disk

variable {ε α β : Type} {disk changed : Disk}

theorem run_pure (value : α) : run (pure value : ExceptT ε (StateM Disk) α) disk =
    (.ok value, disk) := rfl

theorem run_eq_of_result {program : ExceptT ε (StateM Disk) α} {result : Except ε α}
    (h : (run program disk).1 = result) : run program disk = (result, (run program disk).2) :=
  Prod.ext h rfl

theorem bind_apply {program : StateM Disk α} {next : α → StateM Disk β} {value : α}
    (h : program disk = (value, changed)) : (program >>= next) disk = next value changed := by
  change (match program disk with | (value, changed) => next value changed) = next value changed
  rw [h]

theorem run_bind {program : ExceptT ε (StateM Disk) α} {next : α → ExceptT ε (StateM Disk) β}
    {result : Except ε α} (h : run program disk = (result, changed)) :
    run (program >>= next) disk = (ExceptT.bindCont next result : StateM Disk _) changed := by
  have hrun : (ExceptT.run program : StateM Disk _) disk = (result, changed) := h
  change (ExceptT.run program >>= ExceptT.bindCont next : StateM Disk _) disk = _
  exact bind_apply hrun

theorem run_bind_ok {program : ExceptT ε (StateM Disk) α} {next : α → ExceptT ε (StateM Disk) β}
    {value : α} (h : run program disk = (.ok value, changed)) :
    run (program >>= next) disk = run (next value) changed :=
  run_bind h

theorem run_bind_error {program : ExceptT ε (StateM Disk) α}
    {next : α → ExceptT ε (StateM Disk) β} {error : ε}
    (h : run program disk = (.error error, changed)) :
    run (program >>= next) disk = (.error error, changed) :=
  run_bind h

theorem run_bind_pure {program : ExceptT ε (StateM Disk) α} {result : Except ε α}
    (h : run program disk = (result, changed)) (value : α → β) :
    run (program >>= fun found ↦ pure (value found)) disk = (result.map value, changed) := by
  cases result with
  | ok found => exact (run_bind_ok h).trans (run_pure _)
  | error error => exact run_bind_error h

/-- A sequence succeeds when both of its parts do. -/
theorem run_bind_eq_ok {program : ExceptT ε (StateM Disk) α} {next : α → ExceptT ε (StateM Disk) β}
    {value : β} : run (program >>= next) disk = (.ok value, changed) ↔
      ∃ first between, run program disk = (.ok first, between) ∧
        run (next first) between = (.ok value, changed) := by
  cases hrun : run program disk with
  | mk result between =>
    cases result with
    | ok first =>
      rw [run_bind_ok hrun]
      simp
    | error error =>
      rw [run_bind_error hrun]
      simp

/-- A sequence fails when its first part does, or when that succeeds and the second one fails. -/
theorem run_bind_eq_error {program : ExceptT ε (StateM Disk) α}
    {next : α → ExceptT ε (StateM Disk) β} {error : ε} :
    run (program >>= next) disk = (.error error, changed) ↔
      run program disk = (.error error, changed) ∨
        ∃ first between, run program disk = (.ok first, between) ∧
          run (next first) between = (.error error, changed) := by
  cases hrun : run program disk with
  | mk result between =>
    cases result with
    | ok first =>
      rw [run_bind_ok hrun]
      simp
    | error error =>
      rw [run_bind_error hrun]
      simp

theorem change_ok {operation : Disk → Except ε Disk} (h : operation disk = .ok changed) :
    Disk.change operation disk = (.ok (), changed) := by
  rw [change, answer, h]
  rfl

theorem change_error {operation : Disk → Except ε Disk} {error : ε}
    (h : operation disk = .error error) : Disk.change operation disk = (.error error, disk) := by
  rw [change, answer, h]
  rfl

/-! ## Making directories -/

theorem makeChain_new {path : Path} {outer : List Path} (hne : path ≠ Path.empty)
    (h : disk.makeDirectory path = .ok changed) :
    (Files.makeChain (path :: outer) : StateM Disk _) disk = (.ok (), changed) := by
  have hmake : (Files.makeDirectory path : StateM Disk _) disk = (.ok (), changed) := change_ok h
  rw [Files.makeChain, if_neg hne]
  exact bind_apply hmake

theorem isDirectory_of_directory {path : Path}
    (h : disk.readFile path = .error .isADirectory) :
    (Files.isDirectory path : StateM Disk _) disk = (true, disk) := by
  have hread : (Files.readFile path : StateM Disk _) disk = (.error .isADirectory, disk) := by
    rw [← h]
    rfl
  exact bind_apply hread

theorem makeChain_existing {path : Path} {outer : List Path} (hne : path ≠ Path.empty)
    (h : disk.makeDirectory path = .error .alreadyExists)
    (hdirectory : disk.readFile path = .error .isADirectory) :
    (Files.makeChain (path :: outer) : StateM Disk _) disk = (.ok (), disk) := by
  have hmake : (Files.makeDirectory path : StateM Disk _) disk = (.error .alreadyExists, disk) :=
    change_error h
  have htolerate : (Files.makeChain.tolerate path (.error .alreadyExists) : StateM Disk _) disk =
      (.ok (), disk) :=
    bind_apply (isDirectory_of_directory hdirectory)
  rw [Files.makeChain, if_neg hne]
  exact (bind_apply hmake).trans htolerate

theorem makeChain_missing {path : Path} {outer : List Path} {between : Disk}
    (hne : path ≠ Path.empty) (h : disk.makeDirectory path = .error .notFound)
    (houter : (Files.makeChain outer : StateM Disk _) disk = (.ok (), between))
    (hnew : between.makeDirectory path = .ok changed) :
    (Files.makeChain (path :: outer) : StateM Disk _) disk = (.ok (), changed) := by
  have hmake : (Files.makeDirectory path : StateM Disk _) disk = (.error .notFound, disk) :=
    change_error h
  have hagain : (Files.makeDirectory path : StateM Disk _) between = (.ok (), changed) :=
    change_ok hnew
  rw [Files.makeChain, if_neg hne]
  exact (bind_apply hmake).trans ((bind_apply houter).trans (bind_apply hagain))

end Disk

namespace Path

theorem Spells.exists_concat {path : Path} {names : List String} (h : path.Spells names)
    (hend : path.EndsInName) : ∃ init last, names = init ++ [last] := by
  obtain ⟨init, last, hpieces, hlast⟩ := hend
  refine ⟨Path.proper init, last, ?_⟩
  rw [← h.proper, hpieces, proper_append, proper_cons_of_name hlast, proper_nil]

theorem Spells.endsInName {path : Path} {names : List String} {name : String}
    (h : path.Spells (names ++ [name])) (htidy : path.Tidy) : path.EndsInName := by
  rcases htidy with rfl | hend
  · have hproper : [] = names ++ [name] := h.proper
    simp at hproper
  · exact hend

theorem Spells.eq_rootPath {path : Path} (h : path.Spells []) (htidy : path.Tidy) :
    path = rootPath := by
  rcases htidy with rfl | hend
  · rfl
  · obtain ⟨init, last, hnames⟩ := h.exists_concat hend
    simp at hnames

end Path

namespace FileTree

/-- All that is changed is that there are directories under the names and on the way to them. -/
def Paves (before after : FileTree) (names : List String) : Prop :=
  ∀ other, after.lookup other = if other <+: names then some .directory else before.lookup other

theorem Paves.of_directory {tree : FileTree} {names : List String}
    (h : tree.lookup names = some .directory) : Paves tree tree names := by
  intro other
  split
  · next hpre => exact lookup_outer_directory hpre h
  · rfl

theorem Paves.concat {before between after : FileTree} {names : List String} {name : String}
    (h : Paves before between names)
    (hput : Puts between after (names ++ [name]) (some .directory)) :
    Paves before after (names ++ [name]) := by
  intro other
  rw [hput, h]
  simp only [List.prefix_concat_iff]
  by_cases hsame : other = names ++ [name] <;> simp [hsame]

end FileTree

namespace Disk

theorem makeChain_rootPath (disk : Disk) (count : Nat) :
    (Files.makeChain (rootPath.ancestorsWithin count) : StateM Disk _) disk = (.ok (), disk) := by
  have hancestors : rootPath.ancestorsWithin count = [rootPath] := by cases count <;> rfl
  rw [hancestors]
  exact makeChain_existing (by decide) makeDirectory_rootPath
    (readFile_directory (rootPath_spells.reaches disk) disk.tree.lookup_nil)

theorem makeChain_ancestors (count : Nat) {disk : Disk} {path : Path} {names : List String}
    (h : path.Spells names) (htidy : path.Tidy) (hcount : names.length ≤ count)
    (hopen : disk.tree.Open names) :
    ∃ changed, (Files.makeChain (path.ancestorsWithin count) : StateM Disk _) disk =
      (.ok (), changed) ∧ Paves disk.tree changed.tree names := by
  induction count generalizing disk path names with
  | zero =>
    obtain rfl := List.length_eq_zero_iff.1 (Nat.le_zero.1 hcount)
    obtain rfl := h.eq_rootPath htidy
    exact ⟨disk, makeChain_rootPath disk 0, .of_directory disk.tree.lookup_nil⟩
  | succ count ih =>
    rcases List.eq_nil_or_concat' names with rfl | ⟨init, last, rfl⟩
    · obtain rfl := h.eq_rootPath htidy
      exact ⟨disk, makeChain_rootPath disk (count + 1), .of_directory disk.tree.lookup_nil⟩
    · have hend := h.endsInName htidy
      have hne : path ≠ Path.empty := ne_empty_of_isAbsolute h.absolute
      obtain ⟨parent, hparent, hspells, hparentTidy⟩ := h.parent
      have hancestors : path.ancestorsWithin (count + 1) =
          path :: parent.ancestorsWithin count := by
        rw [ancestorsWithin, hparent]
      have houter : disk.tree.Open init := hopen.outer (List.prefix_append init [last])
      rw [hancestors]
      by_cases hmissing : disk.tree.lookup (init ++ [last]) = none
      · by_cases hnone : disk.tree.lookup init = none
        · have hlength : init.length ≤ count := by
            rw [List.length_append, List.length_singleton] at hcount
            omega
          obtain ⟨between, hbetween, hpaves⟩ := ih hspells hparentTidy hlength houter
          have hinit : between.tree.lookup init = some .directory := by
            rw [hpaves, if_pos (List.prefix_refl init)]
          have hlast : between.tree.lookup (init ++ [last]) = none := by
            rw [hpaves, if_neg not_concat_leads, hmissing]
          obtain ⟨changed, hmake, hput⟩ :=
            makeDirectory_new (h.reaches between) hend hinit hlast
          have hfails := makeDirectory_missing (h.reaches disk) hend houter hnone
          exact ⟨changed, makeChain_missing hne hfails
            hbetween hmake, hpaves.concat hput⟩
        · have hinit := houter.eq_directory hnone
          obtain ⟨changed, hmake, hput⟩ :=
            makeDirectory_new (h.reaches disk) hend hinit hmissing
          exact ⟨changed, makeChain_new hne hmake, (Paves.of_directory hinit).concat hput⟩
      · have hfound := hopen.eq_directory hmissing
        exact ⟨disk, makeChain_existing hne (makeDirectory_existing (h.reaches disk) hend hfound)
          (readFile_directory (h.reaches disk) hfound), .of_directory hfound⟩

/-- Directories can be made where no file is in the way. -/
theorem makeDirectories_run {disk : Disk} {path : Path} {names : List String}
    (h : path.Spells names) (htidy : path.Tidy) (hopen : disk.tree.Open names) :
    ∃ changed, (Files.makeDirectories path : StateM Disk _) disk = (.ok (), changed) ∧
      Paves disk.tree changed.tree names := by
  have hcount : names.length ≤ path.pieces.length := by
    rw [← h.proper]
    exact List.length_filter_le _ _
  exact makeChain_ancestors path.pieces.length h htidy hcount hopen

end Disk

namespace Store

/-- The base directory goes through the names, none of which is too long. -/
structure Based (store : Store) (base : List String) : Prop where
  components : store.baseDirectory.components = .root :: base.map .name
  short : ∀ name ∈ base, name.utf8ByteSize ≤ longestName

/-- The filename goes through the names and ends in the last of them, and what the store makes of it
is accepted as a path: the path of the file and the one that its contents are staged under. -/
structure Admits (store : Store) (filename : String) (key : List String) : Prop where
  components : (Path.ofString filename).components = key.map .name
  last : (Path.ofString filename).pieces.getLast? = key.getLast?
  short : ∀ name ∈ key, name.utf8ByteSize ≤ longestName
  nulFree : Disk.holdsNul (store.resolve filename) = false
  size : (store.resolve filename).text.utf8ByteSize ≤ longestPath
  stagedSize : ((store.directoryOf (store.resolve filename)).join
    ⟨[Disk.stagedName]⟩).text.utf8ByteSize ≤ longestPath

/-- A file's path, and what it is staged under, by the names that they spell. -/
structure Placed (store : Store) (filename : String) (outer : List String) (last : String) :
    Prop where
  path : (store.resolve filename).Spells (outer ++ [last])
  ends : (store.resolve filename).EndsInName
  directory : (store.directoryOf (store.resolve filename)).Spells outer
  tidy : (store.directoryOf (store.resolve filename)).Tidy
  staged : ((store.directoryOf (store.resolve filename)).join ⟨[Disk.stagedName]⟩).Spells
    (outer ++ [Disk.stagedName])

variable {store : Store} {base key : List String} {filename : String}

theorem pieces_ne_nil (filename : String) : (Path.ofString filename).pieces ≠ [] := by
  simp [Path.ofString, Text.pieces, Text.cut_ne_nil]

theorem Admits.exists_concat (h : store.Admits filename key) :
    ∃ outer last, key = outer ++ [last] := by
  rcases List.eq_nil_or_concat' key with rfl | hconcat
  · have hlast := h.last
    rw [List.getLast?_nil, List.getLast?_eq_none_iff] at hlast
    exact absurd hlast (pieces_ne_nil filename)
  · exact hconcat

theorem Admits.endsInName {outer : List String} {last : String}
    (h : store.Admits filename (outer ++ [last])) : (Path.ofString filename).EndsInName := by
  obtain ⟨-, hproper, -⟩ := relative_of_components h.components
  have hlast := h.last
  rw [List.getLast?_concat] at hlast
  refine ⟨_, last, (List.dropLast_append_getLast? last hlast).symm, ?_⟩
  exact isIdle_of_mem_proper (hproper ▸ List.mem_append_right outer List.mem_cons_self)

theorem resolve_denotes (hbase : store.baseDirectory.components = .root :: base.map .name)
    (hkey : (Path.ofString filename).components = key.map .name) :
    (store.resolve filename).Denotes (base ++ key) := by
  obtain ⟨hrelative, hproper, hlevel⟩ := relative_of_components hkey
  rw [← hproper]
  exact (denotes_of_components hbase).join hrelative (pieces_ne_nil filename) hlevel

/-- A path that spells the names of a file, when what the file is staged under is accepted. -/
theorem placed_of_spells {outer : List String} {last : String}
    (hpath : (store.resolve filename).Spells (outer ++ [last]))
    (hend : (store.resolve filename).EndsInName)
    (hstaged : Disk.refusal? ((store.directoryOf (store.resolve filename)).join
      ⟨[Disk.stagedName]⟩) = none) : store.Placed filename outer last := by
  obtain ⟨directory, hparent, hdirectory, htidy⟩ := hpath.parent
  have hof : store.directoryOf (store.resolve filename) = directory := by
    rw [directoryOf, hparent, Option.getD_some]
  rw [hof] at hstaged
  have hdenotes : (directory.join ⟨[Disk.stagedName]⟩).Denotes (outer ++ [Disk.stagedName]) :=
    hdirectory.toDenotes.join rfl (List.cons_ne_nil _ _) (by decide)
  refine ⟨hpath, hend, hof ▸ hdirectory, hof ▸ htidy, hof ▸ ⟨hdenotes, hstaged, ?_⟩⟩
  intro name hname
  rcases List.mem_append.1 hname with hname | hname
  · exact hdirectory.short name hname
  · rw [List.mem_singleton.1 hname]
    decide

theorem Admits.placed {outer : List String} {last : String} (hbase : store.Based base)
    (h : store.Admits filename (outer ++ [last])) : store.Placed filename (base ++ outer) last := by
  have hdenotes := resolve_denotes hbase.components h.components
  rw [← List.append_assoc] at hdenotes
  have hpath : (store.resolve filename).Spells (base ++ outer ++ [last]) := by
    refine ⟨hdenotes, (refusal?_eq_none hdenotes.absolute).2 ⟨h.nulFree, h.size⟩, ?_⟩
    intro name hname
    rw [List.append_assoc] at hname
    rcases List.mem_append.1 hname with hname | hname
    · exact hbase.short name hname
    · exact h.short name hname
  have hend := h.endsInName.join (relative_of_components h.components).1 store.baseDirectory
  apply placed_of_spells hpath hend
  obtain ⟨directory, hparent, hdirectory, -⟩ := hpath.parent
  have hsize := h.stagedSize
  rw [directoryOf, hparent, Option.getD_some] at hsize ⊢
  have habsolute : (directory.join ⟨[Disk.stagedName]⟩).isAbsolute = true :=
    (hdirectory.toDenotes.join rfl (List.cons_ne_nil _ _) (by decide)).absolute
  refine (refusal?_eq_none habsolute).2 ⟨?_, hsize⟩
  rw [holdsNul_eq_false_iff, join_of_relative directory rfl, List.forall_mem_append]
  have hnul := holdsNul_eq_false_iff.1 hdirectory.holdsNul_eq_false
  refine ⟨fun piece hpiece ↦ hnul piece (stem_subset directory hpiece), ?_⟩
  rw [List.forall_mem_singleton]
  decide

/-! ## Runs -/

section Runs

open Disk

variable {α : Type} {disk changed : Disk}

theorem run_onPath_ok {operation : StateM Disk (Except FileError α)} {value : α}
    (h : operation disk = (.ok value, changed)) (action : Action) (path : Path) :
    run (onPath action path operation) disk = (.ok value, changed) := by
  change (operation >>= _) disk = _
  exact bind_apply h

theorem run_onPath_error {operation : StateM Disk (Except FileError α)} {cause : FileError}
    (h : operation disk = (.error cause, changed)) (action : Action) (path : Path) :
    run (onPath action path operation) disk = (.error ⟨action, path, cause⟩, changed) := by
  change (operation >>= _) disk = _
  exact bind_apply h

theorem run_replace_ok {directory path : Path} {contents : ByteArray}
    (h : disk.replaceFile directory path contents = .ok changed) :
    run (Store.replace directory path contents) disk = (.ok (), changed) := by
  have hreplace : (Files.replaceFile directory path contents : StateM Disk _) disk =
      (.ok (), changed) := change_ok h
  change ((Files.replaceFile directory path contents : StateM Disk _) >>= _) disk = _
  exact bind_apply hreplace

/-- What is said of a file that cannot be replaced. -/
def replaceError (directory path : Path) : ReplaceError → StoreError
  | .staging cause => ⟨.stage, directory, cause⟩
  | .writing cause => ⟨.write, path, cause⟩
  | .permitting cause => ⟨.setPermissions, path, cause⟩
  | .placing cause => ⟨.replace, path, cause⟩

theorem run_replace_error {directory path : Path} {contents : ByteArray} {cause : ReplaceError}
    (h : disk.replaceFile directory path contents = .error cause) :
    run (Store.replace directory path contents) disk =
      (.error (replaceError directory path cause), disk) := by
  have hreplace : (Files.replaceFile directory path contents : StateM Disk _) disk =
      (.error cause, disk) := change_error h
  change ((Files.replaceFile directory path contents : StateM Disk _) >>= _) disk = _
  rw [bind_apply hreplace]
  cases cause <;> rfl

/-- Writing makes the directories on the way, and then puts the file. -/
theorem write_run {outer : List String} {last : String} (h : store.Placed filename outer last)
    (hopen : disk.tree.Open outer)
    (hfits : disk.tree.lookup (outer ++ [last]) ≠ some .directory) (contents : String) :
    ∃ between changed : Disk, run (store.write filename contents) disk =
      (.ok (store.resolve filename), changed) ∧ Paves disk.tree between.tree outer ∧
        Puts between.tree changed.tree (outer ++ [last]) (some (.file contents.toUTF8)) := by
  obtain ⟨between, hmake, hpaves⟩ := makeDirectories_run h.directory h.tidy hopen
  have hparent : between.tree.lookup outer = some .directory := by
    rw [hpaves, if_pos (List.prefix_refl outer)]
  have hfits' : between.tree.lookup (outer ++ [last]) ≠ some .directory := by
    rwa [hpaves, if_neg not_concat_leads]
  obtain ⟨changed, hreplace, hputs⟩ :=
    replaceFile_directory h.directory.absolute (h.staged.reaches between) (h.path.reaches between)
      h.ends hparent hfits' contents.toUTF8
  refine ⟨between, changed, ?_, hpaves, hputs⟩
  unfold Store.write
  have hmade := run_onPath_ok hmake .createDirectory (store.directoryOf (store.resolve filename))
  apply (run_bind_ok hmade).trans
  exact (run_bind_ok (run_replace_ok hreplace)).trans (run_pure _)

theorem fromUTF8?_toUTF8 (text : String) : String.fromUTF8? text.toUTF8 = some text := by
  have hvalid : text.toUTF8.IsValidUTF8 := text.isValidUTF8
  rw [String.fromUTF8?, dif_pos hvalid]
  rfl

theorem toUTF8_of_fromUTF8? {contents : ByteArray} {text : String}
    (h : String.fromUTF8? contents = some text) : text.toUTF8 = contents := by
  rw [String.fromUTF8?] at h
  split at h
  · cases h
    rfl
  · cases h

section Reading

variable {contents : ByteArray} {text : String} {cause : FileError} {error : StoreError}

theorem run_readFile_ok (h : disk.readFile (store.resolve filename) = .ok contents) :
    run (onPath .read (store.resolve filename) (Files.readFile (store.resolve filename))) disk =
      (.ok contents, disk) := by
  apply run_onPath_ok
  rw [← h]
  rfl

theorem read_ok (h : disk.readFile (store.resolve filename) = .ok text.toUTF8) :
    run (store.read filename) disk = (.ok text, disk) := by
  unfold Store.read
  apply (run_bind_ok (run_readFile_ok h)).trans
  rw [fromUTF8?_toUTF8]
  rfl

theorem read_notText (h : disk.readFile (store.resolve filename) = .ok contents)
    (hnot : String.fromUTF8? contents = none) :
    run (store.read filename) disk =
      (.error ⟨.read, store.resolve filename, .notText⟩, disk) := by
  unfold Store.read
  apply (run_bind_ok (run_readFile_ok h)).trans
  rw [hnot]
  rfl

theorem read_error (h : disk.readFile (store.resolve filename) = .error cause) :
    run (store.read filename) disk = (.error ⟨.read, store.resolve filename, cause⟩, disk) := by
  have hread : (Files.readFile (store.resolve filename) : StateM Disk _) disk =
      (.error cause, disk) := by
    rw [← h]
    rfl
  unfold Store.read
  exact run_bind_error (run_onPath_error hread .read _)

theorem readIfPresent_ok (h : disk.readFile (store.resolve filename) = .ok text.toUTF8) :
    run (store.readIfPresent filename) disk = (.ok (some text), disk) := by
  have hread : (ExceptT.run (store.read filename) : StateM Disk _) disk = (.ok text, disk) :=
    read_ok h
  change ((ExceptT.run (store.read filename) : StateM Disk _) >>= _) disk = _
  exact bind_apply hread

theorem readIfPresent_notFound (h : disk.readFile (store.resolve filename) = .error .notFound) :
    run (store.readIfPresent filename) disk = (.ok none, disk) := by
  have hread : (ExceptT.run (store.read filename) : StateM Disk _) disk =
      (.error ⟨.read, store.resolve filename, .notFound⟩, disk) := read_error h
  change ((ExceptT.run (store.read filename) : StateM Disk _) >>= _) disk = _
  exact bind_apply hread

theorem readIfPresent_error (h : run (store.read filename) disk = (.error error, disk))
    (hother : error.cause ≠ .notFound) :
    run (store.readIfPresent filename) disk = (.error error, disk) := by
  have hread : (ExceptT.run (store.read filename) : StateM Disk _) disk = (.error error, disk) := h
  change ((ExceptT.run (store.read filename) : StateM Disk _) >>= _) disk = _
  apply (bind_apply hread).trans
  dsimp only
  rw [StoreError.isNotFound, if_neg (by simpa using hother)]
  rfl

/-- A file is read as text, or it is missing, or reading fails; the disk stays as it is. -/
theorem readIfPresent_cases (store : Store) (filename : String) (disk : Disk) :
    (∃ text, disk.readFile (store.resolve filename) = .ok text.toUTF8 ∧
        run (store.readIfPresent filename) disk = (.ok (some text), disk)) ∨
      (disk.readFile (store.resolve filename) = .error .notFound ∧
        run (store.readIfPresent filename) disk = (.ok none, disk)) ∨
      ∃ cause, run (store.readIfPresent filename) disk =
        (.error ⟨.read, store.resolve filename, cause⟩, disk) := by
  cases hread : disk.readFile (store.resolve filename) with
  | ok contents =>
    cases htext : String.fromUTF8? contents with
    | some text =>
      rw [← toUTF8_of_fromUTF8? htext] at hread ⊢
      exact .inl ⟨text, rfl, readIfPresent_ok hread⟩
    | none => exact .inr (.inr ⟨_, readIfPresent_error (read_notText hread htext) (by simp)⟩)
  | error cause =>
    by_cases hmissing : cause = .notFound
    · rw [hmissing] at hread ⊢
      exact .inr (.inl ⟨rfl, readIfPresent_notFound hread⟩)
    · exact .inr (.inr ⟨_, readIfPresent_error (read_error hread) hmissing⟩)

theorem readFile_of_readIfPresent_none
    (h : run (store.readIfPresent filename) disk = (.ok none, disk)) :
    disk.readFile (store.resolve filename) = .error .notFound := by
  rcases store.readIfPresent_cases filename disk with
    ⟨text, -, htext⟩ | ⟨hmissing, -⟩ | ⟨error, herror⟩
  · rw [htext] at h
    cases h
  · exact hmissing
  · rw [herror] at h
    cases h

theorem readFile_of_readIfPresent_some
    (h : run (store.readIfPresent filename) disk = (.ok (some text), disk)) :
    disk.readFile (store.resolve filename) = .ok text.toUTF8 := by
  rcases store.readIfPresent_cases filename disk with
    ⟨current, hread, hsome⟩ | ⟨-, hnone⟩ | ⟨cause, herror⟩
  · rw [hsome] at h
    cases h
    exact hread
  · rw [hnone] at h
    cases h
  · rw [herror] at h
    cases h

theorem read_file {outer : List String} {last : String} (h : store.Placed filename outer last)
    (hfound : disk.tree.lookup (outer ++ [last]) = some (.file text.toUTF8)) :
    run (store.read filename) disk = (.ok text, disk) :=
  read_ok (readFile_file (h.path.reaches disk) h.ends hfound)

theorem read_missing {outer : List String} {last : String} (h : store.Placed filename outer last)
    (hopen : disk.tree.Open outer) (hmissing : disk.tree.lookup (outer ++ [last]) = none) :
    run (store.read filename) disk =
      (.error ⟨.read, store.resolve filename, .notFound⟩, disk) :=
  read_error (readFile_missing (h.path.reaches disk) (hopen.concat hmissing) hmissing)

theorem readIfPresent_file {outer : List String} {last : String}
    (h : store.Placed filename outer last)
    (hfound : disk.tree.lookup (outer ++ [last]) = some (.file text.toUTF8)) :
    run (store.readIfPresent filename) disk = (.ok (some text), disk) :=
  readIfPresent_ok (readFile_file (h.path.reaches disk) h.ends hfound)

theorem readIfPresent_missing {outer : List String} {last : String}
    (h : store.Placed filename outer last) (hopen : disk.tree.Open outer)
    (hmissing : disk.tree.lookup (outer ++ [last]) = none) :
    run (store.readIfPresent filename) disk = (.ok none, disk) :=
  readIfPresent_notFound (readFile_missing (h.path.reaches disk) (hopen.concat hmissing) hmissing)

end Reading

theorem run_remove_error {cause : FileError}
    (h : disk.removeFile (store.resolve filename) = .error cause) :
    run (store.remove filename) disk =
      (.error ⟨.remove, store.resolve filename, cause⟩, disk) := by
  have hremove : (Files.removeFile (store.resolve filename) : StateM Disk _) disk =
      (.error cause, disk) := change_error h
  unfold Store.remove
  exact run_bind_error (run_onPath_error hremove .remove _)

/-- Once the file is gone, the directories between the base directory and the file are gone
through. -/
theorem run_remove_ok (h : disk.removeFile (store.resolve filename) = .ok changed) :
    run (store.remove filename) disk =
      run (removeEmpty store.baseDirectory.normalize
        (directoriesBetween store.baseDirectory.normalize
          (store.resolve filename).normalize).reverse) changed := by
  have hremove : (Files.removeFile (store.resolve filename) : StateM Disk _) disk =
      (.ok (), changed) := change_ok h
  unfold Store.remove
  exact run_bind_ok (run_onPath_ok hremove .remove _)

theorem remove_missing {outer : List String} {last : String}
    (h : store.Placed filename outer last) (hopen : disk.tree.Open outer)
    (hmissing : disk.tree.lookup (outer ++ [last]) = none) :
    run (store.remove filename) disk =
      (.error ⟨.remove, store.resolve filename, .notFound⟩, disk) :=
  run_remove_error (removeFile_missing (h.path.reaches disk) h.ends hopen hmissing)

/-- Removing takes the file out, and goes on with the directories below the base directory. -/
theorem remove_file {outer : List String} {last : String} (hbase : store.Based base)
    (h : store.Placed filename (base ++ outer) last) {contents : ByteArray}
    (hfound : disk.tree.lookup (base ++ outer ++ [last]) = some (.file contents)) :
    ∃ between : Disk, Puts disk.tree between.tree (base ++ outer ++ [last]) none ∧
      run (store.remove filename) disk =
        run (removeEmpty store.baseDirectory.normalize outer.reverse) between := by
  obtain ⟨between, hremoved, hputs⟩ := removeFile_file (h.path.reaches disk) h.ends hfound
  have hdenotes := denotes_of_components hbase.components
  have hpath : (store.resolve filename).Denotes (base ++ (outer ++ [last])) := by
    rw [← List.append_assoc]
    exact h.path.toDenotes
  have hbetween := hdenotes.directoriesBetween hpath
  rw [List.dropLast_concat] at hbetween
  refine ⟨between, hputs, ?_⟩
  rw [run_remove_ok hremoved, hbetween]

theorem run_prune_ok {directory : Path} {removed : Bool}
    (h : disk.pruneDirectory directory = .ok (removed, changed)) :
    run (prune directory) disk = (.ok removed, changed) := by
  have hprune : (Files.pruneDirectory directory : StateM Disk _) disk = (.ok removed, changed) := by
    change answer (·.pruneDirectory directory) disk = _
    rw [answer, h]
  change ((Files.pruneDirectory directory : StateM Disk _) >>= _) disk = _
  exact bind_apply hprune

theorem removeEmpty_kept {directory : Path} {directories names : List String} {name inner : String}
    (h : disk.Reaches (directory.join ⟨directories ++ [name]⟩) names)
    (hfound : disk.tree.lookup names = some .directory)
    (hinner : disk.tree.lookup (names ++ [inner]) ≠ none) :
    run (removeEmpty directory (directories ++ [name]).reverse) disk = (.ok (), disk) := by
  have hprune := run_prune_ok (pruneDirectory_kept h hfound hinner)
  rw [← List.reverse_reverse (directories ++ [name])] at hprune
  rw [List.reverse_append, List.reverse_singleton, List.singleton_append] at hprune ⊢
  unfold removeEmpty
  exact (run_bind_ok hprune).trans (run_pure _)

theorem removeEmpty_gone {directory : Path} {directories names : List String} {name : String}
    (h : disk.Reaches (directory.join ⟨directories ++ [name]⟩) (names ++ [name]))
    (hend : (directory.join ⟨directories ++ [name]⟩).EndsInName)
    (hfound : disk.tree.lookup (names ++ [name]) = some .directory)
    (halone : ∀ inner, disk.tree.lookup (names ++ [name] ++ [inner]) = none) :
    ∃ changed : Disk, Puts disk.tree changed.tree (names ++ [name]) none ∧
      changed.workingDirectory = disk.workingDirectory.afterRemoving (name :: names.reverse) ∧
      run (removeEmpty directory (directories ++ [name]).reverse) disk =
        run (removeEmpty directory directories.reverse) changed := by
  obtain ⟨changed, hpruned, hputs, hworking⟩ := pruneDirectory_empty h hend hfound halone
  have hprune := run_prune_ok hpruned
  refine ⟨changed, hputs, hworking, ?_⟩
  rw [← List.reverse_reverse (directories ++ [name])] at hprune
  rw [List.reverse_append, List.reverse_singleton, List.singleton_append] at hprune ⊢
  rw [removeEmpty]
  exact run_bind_ok hprune

end Runs

end Store

end DeclaredSource.Storage
