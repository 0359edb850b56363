import DeclaredSource.Proofs.Storage.Removal
import Mathlib.Data.List.Infix

/-!
# The directories that removing looks into

A path that leads somewhere leads to the same place in its normal form. So the directories between a
base directory and a file, which are found by normal forms alone, are the directories that the file
is in. Each of them is looked into while the ones inside it are already gone, and the working
directory may have been one of those; its normal form then still leads to it, as climbing out of
what is gone comes to the same place.
-/

namespace DeclaredSource.Storage

open Storage.Path FileTree

namespace Disk

variable {disk changed : Disk} {path : Path} {finish : Standpoint} {anchor : Anchor}
  {count : Nat} {origin lead key : List String}

/-- Where a path leads. The empty path stays where paths start. -/
def reach (disk : Disk) (path : Path) : Except FileError Standpoint :=
  if path = Path.empty then .ok disk.workingDirectory else disk.locate path

theorem locate_eq_ok (h : disk.locate path = .ok finish) :
    refusal? path = none ∧ disk.tree.walk (disk.start path) path.names = .ok finish := by
  rw [locate] at h
  split at h
  · cases h
  next haccepted =>
  split at h
  · cases h
  next hwalk =>
  split at h
  · cases h
  · cases h
    exact ⟨haccepted, hwalk⟩

/-- What a path leads to, its normal form leads to. -/
theorem reach_normalize (h : disk.locate path = .ok finish) :
    disk.reach path.normalize = .ok finish := by
  obtain ⟨haccepted, hwalk⟩ := locate_eq_ok h
  have hnormal := walk_normalize hwalk
  obtain ⟨anchor, pieces, hforms⟩ := path.exists_forms
  by_cases hnone : pieces = []
  · rw [hforms.normal, hnone] at hnormal ⊢
    cases anchor with
    | here => exact absurd rfl hforms.relative
    | root => exact hnormal
    | none => exact hnormal
  · have hend : (assemble anchor pieces).EndsInName := assemble_endsInName hforms.proper hnone
    have haccepted' := accepted_of_forms hforms haccepted (List.prefix_refl _) hnone
    rw [hforms.normal] at hnormal ⊢
    rw [reach, if_neg (accepted_iff.1 haccepted').2.1]
    exact locate_of_walk haccepted' hnormal hend.endsOpen_eq_false

/-- Joined with some of the first names, the base directory leads to the directory under them. -/
def Leads (disk : Disk) (base : Path) (bound key : List String) : Prop :=
  ∀ inner, inner <+: key → inner ≠ [] → disk.tree.lookup (bound ++ inner) = some .directory →
    disk.locate (base.join ⟨inner⟩) = .ok (under (bound ++ inner))

/-- A base directory leads on as the normal form of a path below it does, as long as climbing comes
to where the path has its names. -/
theorem leads_of_forms (h : path.Forms anchor (List.replicate count ".." ++ (lead ++ key)))
    (accepted : refusal? path = none) (named : ∀ name ∈ lead ++ key, IsName name)
    (short : ∀ name ∈ lead ++ key, name.utf8ByteSize ≤ longestName)
    (hclimbs : (disk.origin anchor).climbed count = under origin) :
    disk.Leads (assemble anchor (List.replicate count ".." ++ lead)) (origin ++ lead) key := by
  intro inner hinner present hfound
  have hlonger : lead ++ inner <+: lead ++ key := (List.prefix_append_right_inj lead).2 hinner
  have hnamed : ∀ name ∈ lead ++ inner, IsName name :=
    fun name hname ↦ named name (hlonger.subset hname)
  have hpre : List.replicate count ".." ++ (lead ++ inner) <+:
      List.replicate count ".." ++ (lead ++ key) := (List.prefix_append_right_inj _).2 hlonger
  have hidle : ∀ piece ∈ List.replicate count ".." ++ (lead ++ inner), isIdle piece = false :=
    fun piece hpiece ↦ h.proper piece (hpre.subset hpiece)
  have hpresent : List.replicate count ".." ++ (lead ++ inner) ≠ [] := by simp [present]
  have hwalkable : Walkable (lead ++ inner) :=
    walkable_of_named hnamed fun name hname ↦ short name (hlonger.subset hname)
  have hend : (assemble anchor (List.replicate count ".." ++ (lead ++ inner))).EndsInName :=
    assemble_endsInName hidle hpresent
  rw [join_assemble h.relative (by rwa [List.append_assoc]) present, List.append_assoc,
    List.append_assoc]
  apply locate_of_walk (accepted_of_forms h accepted hpre hpresent) _ hend.endsOpen_eq_false
  rw [names_assemble h.relative hidle, start_assemble h.relative hidle]
  refine walk_append_eq_ok.2 ⟨_, walk_ups (disk.find_kept_origin anchor) count, ?_⟩
  rw [List.append_assoc, ← proper_of_named hnamed] at hfound
  rw [hclimbs, walk_of_directory hwalkable hfound, proper_of_named hnamed]

/-! ## Watched programs -/

/-- The directories that were looked into, in this order, with what their paths led to then. -/
abbrev Visits := List (Path × Except FileError Standpoint)

/-- Operations on a disk that note the directories they look into. -/
instance : Files (StateT Visits (StateM Disk)) where
  readFile path := StateT.lift (Files.readFile path)
  makeDirectory path := StateT.lift (Files.makeDirectory path)
  replaceFile directory path contents := StateT.lift (Files.replaceFile directory path contents)
  removeFile path := StateT.lift (Files.removeFile path)
  pruneDirectory path := do
    let disk ← getThe Disk
    modify (· ++ [(path, disk.locate path)])
    StateT.lift (Files.pruneDirectory path)
  workingDirectory := StateT.lift Files.workingDirectory

variable {ε α β : Type}

/-- What a watched program answers, with its visits after those from before, and the disk that it
leaves. -/
def watch (program : ExceptT ε (StateT Visits (StateM Disk)) α) (before : Visits) (disk : Disk) :
    (Except ε α × Visits) × Disk :=
  StateT.run (StateT.run (ExceptT.run program) before) disk

/-- The watched program comes to what the program itself comes to, by way of the visits. -/
def Notes (watched : ExceptT ε (StateT Visits (StateM Disk)) α)
    (program : ExceptT ε (StateM Disk) α) (disk : Disk) (visits : Visits) : Prop :=
  ∀ before, watch watched before disk =
    (((run program disk).1, before ++ visits), (run program disk).2)

section Notes

variable {watched : ExceptT ε (StateT Visits (StateM Disk)) α}
  {program : ExceptT ε (StateM Disk) α} {next : α → ExceptT ε (StateM Disk) β}
  {watchedNext : α → ExceptT ε (StateT Visits (StateM Disk)) β} {visits further : Visits}

theorem notes_pure (value : α) (disk : Disk) :
    Notes (pure value : ExceptT ε (StateT Visits (StateM Disk)) α) (pure value) disk [] := by
  intro before
  rw [List.append_nil]
  rfl

theorem watched_bind_apply {first : StateT Visits (StateM Disk) α}
    {second : α → StateT Visits (StateM Disk) β} {value : α} {before : Visits}
    (h : first before disk = ((value, visits), changed)) :
    (first >>= second) before disk = second value visits changed := by
  change (match first before disk with
    | ((value, visits), changed) => second value visits changed) = second value visits changed
  rw [h]

theorem watch_bind {result : Except ε α} {before : Visits}
    (h : watch watched before disk = ((result, visits), changed)) :
    watch (watched >>= watchedNext) before disk =
      (ExceptT.bindCont watchedNext result : StateT Visits (StateM Disk) _) visits changed := by
  have hrun : (ExceptT.run watched : StateT Visits (StateM Disk) _) before disk =
      ((result, visits), changed) := h
  change (ExceptT.run watched >>= ExceptT.bindCont watchedNext : StateT Visits (StateM Disk) _)
    before disk = _
  exact watched_bind_apply hrun

theorem Notes.bind_ok {value : α} (h : Notes watched program disk visits)
    (hrun : run program disk = (.ok value, changed))
    (hnext : Notes (watchedNext value) (next value) changed further) :
    Notes (watched >>= watchedNext) (program >>= next) disk (visits ++ further) := by
  intro before
  have hwatch := h before
  rw [hrun] at hwatch
  rw [run_bind_ok hrun, ← List.append_assoc]
  exact (watch_bind hwatch).trans (hnext _)

theorem Notes.bind_error {error : ε} (h : Notes watched program disk visits)
    (hrun : run program disk = (.error error, changed)) :
    Notes (watched >>= watchedNext) (program >>= next) disk visits := by
  intro before
  have hwatch := h before
  rw [hrun] at hwatch
  rw [run_bind_error hrun]
  exact watch_bind hwatch

end Notes

end Disk

namespace Store

open Disk

variable {disk changed : Disk} {path base : Path} {anchor : Anchor} {count : Nat}
  {origin lead key directories : List String} {name : String}

theorem removeFile_notes (path : Path) (disk : Disk) :
    Notes (onPath .remove path (Files.removeFile path))
      (onPath .remove path (Files.removeFile path)) disk [] := by
  intro before
  cases hrun : (Files.removeFile path : StateM Disk _) disk with
  | mk result changed =>
    have hwatched : (Files.removeFile path : StateT Visits (StateM Disk) _) before disk =
        ((result, before), changed) :=
      congrArg (fun outcome : Except FileError Unit × Disk ↦ ((outcome.1, before), outcome.2)) hrun
    have hplain : run (onPath .remove path (Files.removeFile path)) disk = _ := bind_apply hrun
    have hwatch : watch (onPath .remove path (Files.removeFile path)) before disk = _ :=
      watched_bind_apply hwatched
    rw [hplain, hwatch, List.append_nil]
    cases result <;> rfl

theorem prune_notes (directory : Path) (disk : Disk) :
    Notes (prune directory) (prune directory) disk [(directory, disk.locate directory)] := by
  intro before
  cases hrun : (Files.pruneDirectory directory : StateM Disk _) disk with
  | mk result changed =>
    have hwatched : (Files.pruneDirectory directory : StateT Visits (StateM Disk) _) before disk =
        ((result, before ++ [(directory, disk.locate directory)]), changed) :=
      congrArg (fun outcome : Except PruneError Bool × Disk ↦
        ((outcome.1, before ++ [(directory, disk.locate directory)]), outcome.2)) hrun
    have hplain : run (prune directory) disk = _ := bind_apply hrun
    have hwatch : watch (prune directory) before disk = _ := watched_bind_apply hwatched
    rw [hplain, hwatch]
    rcases result with (cause | cause) | removed <;> rfl

theorem inits_concat (names : List String) (name : String) :
    (names ++ [name]).inits = names.inits ++ [names ++ [name]] := by
  rw [List.inits_append]
  rfl

theorem removeEmpty_concat {m : Type → Type} [Monad m] [Files m] (base : Path)
    (directories : List String) (name : String) :
    (removeEmpty base (directories ++ [name]).reverse : ExceptT StoreError m Unit) =
      prune (base.join ⟨directories ++ [name]⟩) >>= fun removed ↦
        if removed then removeEmpty base directories.reverse else pure () := by
  have hnames : (name :: directories.reverse).reverse = directories ++ [name] := by
    rw [List.reverse_cons, List.reverse_reverse]
  rw [List.reverse_append, List.reverse_singleton, List.singleton_append, removeEmpty, hnames]

theorem prune_eq_ok {directory : Path} {removed : Bool}
    (h : run (prune directory) disk = (.ok removed, changed)) :
    disk.pruneDirectory directory = .ok (removed, changed) := by
  cases hprune : disk.pruneDirectory directory with
  | ok outcome =>
    rw [run_prune_ok hprune] at h
    cases h
    rfl
  | error cause =>
    have hrun : (Files.pruneDirectory directory : StateM Disk _) disk = (.error cause, disk) := by
      change answer (·.pruneDirectory directory) disk = _
      rw [answer, hprune]
    have hfails : run (prune directory) disk = _ := bind_apply hrun
    rw [hfails] at h
    cases cause <;> cases h

/-- The loop goes outwards from directory to directory, and each path leads to the directory. -/
theorem removeEmpty_notes
    (hleads : ∀ disk : Disk, (disk.origin anchor).climbed count = under origin →
      disk.Leads base (origin ++ lead) key)
    (hpre : directories <+: key) (hclimbs : (disk.origin anchor).climbed count = under origin)
    (hfound : disk.tree.lookup (origin ++ lead ++ directories) = some .directory) :
    ∃ visits, Notes (removeEmpty base directories.reverse) (removeEmpty base directories.reverse)
        disk visits ∧
      visits.map Prod.snd <+:
        (origin ++ lead ++ directories).inits.reverse.map fun outer ↦ .ok (under outer) := by
  induction directories using List.reverseRecOn generalizing disk with
  | nil => exact ⟨[], notes_pure () disk, List.nil_prefix⟩
  | append_singleton directories name ih =>
    have hlocated := hleads disk hclimbs _ hpre (by simp) hfound
    have hnotes := prune_notes (base.join ⟨directories ++ [name]⟩) disk
    rw [← List.append_assoc] at hfound hlocated
    rw [hlocated] at hnotes
    rw [removeEmpty_concat, removeEmpty_concat, ← List.append_assoc, inits_concat,
      List.reverse_append, List.reverse_singleton, List.singleton_append, List.map_cons]
    cases hrun : run (prune (base.join ⟨directories ++ [name]⟩)) disk with
    | mk result between =>
      rcases result with error | removed
      · exact ⟨_, hnotes.bind_error hrun, List.cons_prefix_cons.2 ⟨rfl, List.nil_prefix⟩⟩
      cases removed with
      | false =>
        exact ⟨_, hnotes.bind_ok hrun (notes_pure () between),
          List.cons_prefix_cons.2 ⟨rfl, List.nil_prefix⟩⟩
      | true =>
        obtain ⟨outer, last, hwalk, -, hputs, hworking⟩ :=
          removeDirectory_eq_ok (pruneDirectory_eq_true (prune_eq_ok hrun))
        have hsame := under_inj (Except.ok.inj (hwalk.symm.trans (locate_eq_ok hlocated).2))
        obtain ⟨rfl, hlast⟩ := List.append_inj' hsame rfl
        obtain ⟨rfl, -⟩ := List.cons.inj hlast
        rw [List.append_assoc origin] at hworking
        have houter : between.tree.lookup (origin ++ lead ++ directories) = some .directory := by
          rw [hputs.other (by simp)]
          exact lookup_parent (by rw [hfound]; simp)
        obtain ⟨visits, hrest, hvisits⟩ := ih ((List.prefix_append _ [last]).trans hpre)
          (climbed_of_afterRemoving hclimbs hworking) houter
        exact ⟨_, hnotes.bind_ok hrun hrest, List.cons_prefix_cons.2 ⟨rfl, hvisits⟩⟩

/-- The normal form of a path below a base directory goes on from that of the base directory. -/
theorem IsBelow.forms (h : IsBelow base path directories name) : ∃ anchor count lead,
    base.normalize = assemble anchor (List.replicate count ".." ++ lead) ∧
      path.Forms anchor (List.replicate count ".." ++ (lead ++ (directories ++ [name]))) ∧
      ∀ piece ∈ lead ++ (directories ++ [name]), IsName piece := by
  obtain ⟨anchor, pieces, hbase⟩ := base.exists_forms
  obtain ⟨anchor', pieces', hpath⟩ := path.exists_forms
  obtain ⟨count, lead, hlead, hclimb⟩ := base.exists_climb
  have hnamed : ∀ piece ∈ directories ++ [name], IsName piece := by
    intro piece hpiece
    have hcomponent : .name piece ∈ path.normalize.components := by
      rw [h]
      exact List.mem_append_right _ (List.mem_map_of_mem hpiece)
    exact isName_of_mem_components hcomponent
  have habsolute : path.isAbsolute = true ↔ base.isAbsolute = true := by
    rw [← root_mem_components, ← root_mem_components, h]
    simp
  obtain rfl := hpath.anchor_eq hbase habsolute
  have hpieces : pieces = List.replicate count ".." ++ lead :=
    hbase.names_normalize.symm.trans hclimb
  have hpieces' : pieces' = List.replicate count ".." ++ (lead ++ (directories ++ [name])) := by
    rw [← hpath.names_normalize, Path.names_normalize, h, steps_append, steps_names hnamed,
      ← Path.names_normalize, hclimb, List.append_assoc]
  exact ⟨anchor', count, lead, hpieces ▸ hbase.normal, hpieces' ▸ hpath,
    List.forall_mem_append.2 ⟨hlead, hnamed⟩⟩

variable {store : Store} {filename : String} {between : Disk} {visits : Visits}

theorem remove_notes_error {cause : FileError}
    (h : disk.removeFile (store.resolve filename) = .error cause) :
    Notes (store.remove filename) (store.remove filename) disk [] := by
  have hremove : (Files.removeFile (store.resolve filename) : StateM Disk _) disk =
      (.error cause, disk) := change_error h
  unfold Store.remove
  exact (removeFile_notes _ disk).bind_error (run_onPath_error hremove .remove _)

theorem remove_notes_ok (h : disk.removeFile (store.resolve filename) = .ok between)
    (hrest : Notes
      (removeEmpty store.baseDirectory.normalize (directoriesBetween store.baseDirectory.normalize
        (store.resolve filename).normalize).reverse)
      (removeEmpty store.baseDirectory.normalize (directoriesBetween store.baseDirectory.normalize
        (store.resolve filename).normalize).reverse) between visits) :
    Notes (store.remove filename) (store.remove filename) disk visits := by
  have hremove : (Files.removeFile (store.resolve filename) : StateM Disk _) disk =
      (.ok (), between) := change_ok h
  unfold Store.remove
  exact (removeFile_notes _ disk).bind_ok (run_onPath_ok hremove .remove _) hrest

/-- The visits of a removal are the directories of the file that is removed, one after the other. -/
theorem visits_of_remove (hremoved : disk.removeFile (store.resolve filename) = .ok between) :
    ∃ file visits contents, disk.locate (store.resolve filename) = .ok (under file) ∧
      disk.tree.lookup file = some (.file contents) ∧
      Notes (store.remove filename) (store.remove filename) disk visits ∧
      visits.map Prod.snd <+: file.dropLast.inits.reverse.map fun outer ↦ .ok (under outer) := by
  obtain ⟨outer, last, contents, accepted, closed, hwalk, hfile, hputs, hworking⟩ :=
    removeFile_eq_ok hremoved
  have hlocated := locate_of_walk accepted hwalk closed
  by_cases hbelow : ∃ directories name,
      IsBelow store.baseDirectory (store.resolve filename) directories name
  · obtain ⟨directories, name, hbelow⟩ := hbelow
    obtain ⟨anchor, count, lead, hbase, hforms, hnamed⟩ := hbelow.forms
    obtain ⟨origin, hclimbs, hnames, hshort, -⟩ := walk_of_forms hforms hnamed hwalk
    rw [← List.append_assoc, ← List.append_assoc] at hnames
    obtain ⟨rfl, -⟩ := List.append_inj' hnames rfl
    have hdirectory : between.tree.lookup (origin ++ lead ++ directories) = some .directory := by
      rw [hputs.other (by simp)]
      exact lookup_parent (by rw [hfile]; simp)
    have hclimbs' : (between.origin anchor).climbed count = under origin := by
      rw [← hclimbs, Disk.origin, Disk.origin, hworking]
    obtain ⟨visits, hnotes, hvisits⟩ := removeEmpty_notes
      (fun _ ↦ leads_of_forms hforms accepted hnamed hshort) (List.prefix_append directories [name])
      hclimbs' hdirectory
    have hbetween := directoriesBetween_eq hbelow
    rw [List.dropLast_concat] at hbetween
    refine ⟨_, visits, contents, hlocated, hfile, remove_notes_ok hremoved ?_, ?_⟩
    · rw [hbetween, hbase]
      exact hnotes
    · rwa [List.dropLast_concat]
  · simp only [not_exists] at hbelow
    refine ⟨_, [], contents, hlocated, hfile, remove_notes_ok hremoved ?_, List.nil_prefix⟩
    rw [directoriesBetween_eq_nil hbelow]
    exact notes_pure () between

/-- What a path leads to, its normal form leads to. A removal looks into no directory unless the
file is removed, and then its paths lead to the directories that the file is in, from the innermost
outwards. -/
theorem normal_forms_lead_to_ancestors (disk : Disk) :
    (∀ path finish, disk.locate path = .ok finish → disk.reach path.normalize = .ok finish) ∧
      ∀ (store : Store) (filename : String),
        (∀ cause, disk.removeFile (store.resolve filename) = .error cause →
          Notes (store.remove filename) (store.remove filename) disk []) ∧
        ∀ between, disk.removeFile (store.resolve filename) = .ok between →
          ∃ file visits contents, disk.locate (store.resolve filename) = .ok (under file) ∧
            disk.tree.lookup file = some (.file contents) ∧
            Notes (store.remove filename) (store.remove filename) disk visits ∧
            visits.map Prod.snd <+:
              file.dropLast.inits.reverse.map fun outer ↦ .ok (under outer) :=
  ⟨fun _ _ ↦ reach_normalize, fun _ _ ↦
    ⟨fun _ ↦ remove_notes_error, fun _ ↦ visits_of_remove⟩⟩

/-- A disk that stands in the innermost directory of its only file. -/
def insideDisk : Disk :=
  let written := (run ((Store.mk (Path.ofString "/r")).write "x/a/b/lib.go" "package lib\n") bare).2
  match written.changeDirectory (Path.ofString "/r/x/a/b") with
  | .ok inside => inside
  | .error _ => written

/-- The base directory is outside the working directory, which is removed on the way. -/
theorem normal_forms_lead_out_of_inside :
    let store : Store := ⟨Path.ofString "./../../..//x/"⟩
    let filename := "a/../a//b/lib.go"
    insideDisk.reach (store.resolve filename).normalize =
        .ok (under ["r", "x", "a", "b", "lib.go"]) ∧
      (∃ file visits contents, insideDisk.locate (store.resolve filename) = .ok (under file) ∧
        insideDisk.tree.lookup file = some (.file contents) ∧
        Notes (store.remove filename) (store.remove filename) insideDisk visits ∧
        visits.map Prod.snd <+: file.dropLast.inits.reverse.map fun outer ↦ .ok (under outer)) ∧
      (watch (store.remove filename) [] insideDisk).1 = (.ok (),
        [(Path.ofString "../../../x/a/b", .ok (under ["r", "x", "a", "b"])),
          (Path.ofString "../../../x/a", .ok (under ["r", "x", "a"]))]) := by
  intro store filename
  obtain ⟨hnormal, hremove⟩ := normal_forms_lead_to_ancestors insideDisk
  have hlocated : insideDisk.locate (store.resolve filename) =
      .ok (under ["r", "x", "a", "b", "lib.go"]) := by decide +kernel
  refine ⟨hnormal _ _ hlocated, ?_, by decide +kernel⟩
  cases hremoved : insideDisk.removeFile (store.resolve filename) with
  | ok between => exact (hremove store filename).2 between hremoved
  | error cause =>
    have hfails : (insideDisk.removeFile (store.resolve filename)).isOk = true := by decide +kernel
    rw [hremoved] at hfails
    cases hfails

end Store

end DeclaredSource.Storage
