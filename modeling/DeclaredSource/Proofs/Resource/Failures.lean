import DeclaredSource.Proofs.Resource.Agreement
import DeclaredSource.Proofs.Storage.FailedWrites
import DeclaredSource.Proofs.Storage.Removal

/-!
# Requests that fail

Every request is a sequence of steps, and whichever of them fails, nothing is damaged. The steps
before a write or a removal only look at the disk. A write that fails leaves no more than new
directories where the file's directory is spelled, and a removal fails before anything is removed:
once the file is gone, nothing of what follows can fail.
-/

namespace DeclaredSource

open Storage Disk

/-- Whether it was writing that failed. -/
def ResourceError.isOfWriting : ResourceError → Bool
  | .generation _ => false
  | .storage error =>
    error.action ∈ [.createDirectory, .stage, .write, .setPermissions, .replace]

namespace Resource

variable {α β : Type} {resource : Resource} {store : Store} {filename : String}
  {declaration : Json} {disk changed : Disk} {error : ResourceError}

/-- No file is touched and no directory removed. New directories are on the way, as it is spelled,
to the parent of the file's path, or to the base directory for a path without one, and there are
none unless writing failed. If it failed in replacing the file then replacing it in steps, with the
contents staged under any fresh name, fails for the same cause and leaves the disk the same. -/
structure Spares (store : Store) (filename : String) (error : ResourceError)
    (disk changed : Disk) : Prop where
  files : ∀ names contents, changed.tree.lookup names = some (.file contents) ↔
    disk.tree.lookup names = some (.file contents)
  directories : ∀ names, disk.tree.lookup names = some .directory →
    changed.tree.lookup names = some .directory
  added : ∀ names, disk.tree.lookup names = none →
    changed.tree.lookup names = some .directory →
    changed.OnWay (store.directoryOf (store.resolve filename)) names
  untouched : error.isOfWriting = false → changed = disk
  staged : ∀ cause, error = .storage (Store.replaceError
      (store.directoryOf (store.resolve filename)) (store.resolve filename) cause) →
    ∀ name contents, changed.Fresh (store.resolve filename) name →
      changed.replaceInSteps name (store.directoryOf (store.resolve filename))
        (store.resolve filename) contents = (.error cause, changed)

theorem isOfWriting_replaceError (directory path : Storage.Path) (cause : ReplaceError) :
    (ResourceError.storage (Store.replaceError directory path cause)).isOfWriting = true := by
  cases cause <;> rfl

theorem Spares.of_untouched (h : error.isOfWriting = false) :
    Spares store filename error disk disk where
  files _ _ := Iff.rfl
  directories _ hdirectory := hdirectory
  added := by
    intro names hnone hdirectory
    rw [hnone] at hdirectory
    cases hdirectory
  untouched _ := rfl
  staged := by
    rintro cause rfl
    rw [isOfWriting_replaceError] at h
    cases h

theorem Spares.of_write {text : String} {error : StoreError}
    (hlays : Lays (store.directoryOf (store.resolve filename)) disk changed)
    (hstops : store.StopsAt filename text changed error) :
    Spares store filename (.storage error) disk changed where
  files := by
    intro names contents
    refine ⟨fun hfile ↦ ?_, hlays.lookup⟩
    by_contra hother
    have hnew : changed.tree.lookup names ≠ disk.tree.lookup names := by
      rw [hfile]
      exact Ne.symm hother
    have hdirectory := (hlays.laid names hnew).1
    rw [hfile] at hdirectory
    cases hdirectory
  directories _ := hlays.lookup
  added := by
    intro names hnone hdirectory
    exact (hlays.laid names (by rw [hnone, hdirectory]; simp)).2
  untouched := by
    intro hother
    cases hstops with
    | making cause => cases hother
    | replacing cause failed =>
      rw [isOfWriting_replaceError] at hother
      cases hother
  staged := by
    intro cause herror name contents hfresh
    have hsteps := replaceInSteps_eq hfresh (store.directoryOf (store.resolve filename)) contents
    cases hstops with
    | making reason => cases cause <;> cases herror
    | replacing reason failed =>
      obtain rfl := Store.replaceError_inj (ResourceError.storage.inj herror)
      exact hsteps.trans (change_error (replaceFile_error failed contents))

/-- The program changes nothing, and it is not writing that it fails in. -/
def Looks (program : ExceptT ResourceError (StateM Disk) α) : Prop :=
  ∀ disk, ∃ result, run program disk = (result, disk) ∧
    ∀ error, result = .error error → error.isOfWriting = false

theorem looks_pure (value : α) : Looks (pure value) :=
  fun _ ↦ ⟨.ok value, rfl, fun _ herror ↦ nomatch herror⟩

theorem Looks.bind {program : ExceptT ResourceError (StateM Disk) α}
    {next : α → ExceptT ResourceError (StateM Disk) β} (h : Looks program)
    (hnext : ∀ value, Looks (next value)) : Looks (program >>= next) := by
  intro disk
  obtain ⟨result, hrun, hearly⟩ := h disk
  cases result with
  | ok value =>
    rw [run_bind_ok hrun]
    exact hnext value disk
  | error error => exact ⟨.error error, run_bind_error hrun, by simpa using hearly⟩

theorem looks_generate (resource : Resource) (declaration : Json) :
    Looks (resource.generate declaration) := by
  intro disk
  cases hgenerate : Generation.generate resource.mode declaration with
  | ok text => exact ⟨_, run_generate_ok hgenerate disk, by simp⟩
  | error error => exact ⟨_, run_generate_error hgenerate disk, by simp [ResourceError.isOfWriting]⟩

theorem looks_read (store : Store) (filename : String) :
    Looks (stored (store.read filename)) := by
  intro disk
  cases hread : disk.readFile (store.resolve filename) with
  | error cause => exact ⟨_, run_stored (Store.read_error hread), by rintro _ ⟨⟩; rfl⟩
  | ok contents =>
    cases htext : String.fromUTF8? contents with
    | none => exact ⟨_, run_stored (Store.read_notText hread htext), by rintro _ ⟨⟩; rfl⟩
    | some text =>
      rw [← Store.toUTF8_of_fromUTF8? htext] at hread
      exact ⟨_, run_stored (Store.read_ok hread), by rintro _ ⟨⟩⟩

theorem looks_readIfPresent (store : Store) (filename : String) :
    Looks (stored (store.readIfPresent filename)) := by
  intro disk
  rcases store.readIfPresent_cases filename disk with
    ⟨text, -, hread⟩ | ⟨-, hread⟩ | ⟨cause, hread⟩
  · exact ⟨_, run_stored hread, by rintro _ ⟨⟩⟩
  · exact ⟨_, run_stored hread, by rintro _ ⟨⟩⟩
  · exact ⟨_, run_stored hread, by rintro _ ⟨⟩; rfl⟩

theorem looks_view (store : Store) (filename : String) : Looks (view store filename) :=
  (looks_read store filename).bind fun _ ↦ looks_pure _

theorem looks_compare (resource : Resource) (filename desired : String) :
    Looks (resource.compare filename desired) :=
  (looks_readIfPresent resource.store filename).bind fun _ ↦ looks_pure _

theorem looks_plan (resource : Resource) (filename : String) (declaration : Json) :
    Looks (resource.plan filename declaration) :=
  (looks_generate resource declaration).bind fun _ ↦ looks_compare resource filename _

/-- Wherever the program fails, it has damaged nothing. -/
def Harmless (store : Store) (filename : String)
    (program : ExceptT ResourceError (StateM Disk) α) : Prop :=
  ∀ disk error changed, run program disk = (.error error, changed) →
    Spares store filename error disk changed

theorem Looks.harmless {program : ExceptT ResourceError (StateM Disk) α} (h : Looks program) :
    Harmless store filename program := by
  intro disk error changed hfails
  obtain ⟨result, hrun, hearly⟩ := h disk
  obtain ⟨rfl, rfl⟩ := Prod.mk.inj (hrun.symm.trans hfails)
  exact .of_untouched (hearly error rfl)

/-- After looking, the disk is still the one that a failure is measured by. -/
theorem Looks.before {program : ExceptT ResourceError (StateM Disk) α}
    {next : α → ExceptT ResourceError (StateM Disk) β} (h : Looks program)
    (hnext : ∀ value, Harmless store filename (next value)) :
    Harmless store filename (program >>= next) := by
  intro disk error changed hfails
  rcases run_bind_eq_error.1 hfails with hfirst | ⟨value, between, hfirst, hsecond⟩
  · exact h.harmless disk error changed hfirst
  · obtain ⟨result, hrun, -⟩ := h disk
    obtain ⟨-, rfl⟩ := Prod.mk.inj (hrun.symm.trans hfirst)
    exact hnext value _ error changed hsecond

/-- What follows does not fail. -/
theorem Harmless.map {program : ExceptT ResourceError (StateM Disk) α}
    (h : Harmless store filename program) (value : α → β) :
    Harmless store filename (program >>= fun found ↦ pure (value found)) := by
  intro disk error changed hfails
  rcases run_bind_eq_error.1 hfails with hfirst | ⟨_, _, _, hpure⟩
  · exact h disk error changed hfirst
  · cases hpure

theorem harmless_write (store : Store) (filename text : String) :
    Harmless store filename (stored (store.write filename text)) := by
  intro disk error changed hfails
  cases hwrite : run (store.write filename text) disk with
  | mk result after =>
    cases result with
    | ok path =>
      rw [run_stored hwrite] at hfails
      cases hfails
    | error cause =>
      rw [run_stored hwrite] at hfails
      cases hfails
      obtain ⟨hlays, hstops⟩ := Store.write_eq_error hwrite
      exact .of_write hlays hstops

theorem harmless_remove
    (hbase : store.baseDirectory.isAbsolute = true ∨
      store.baseDirectory.normalize.components.head? ≠ some .up) (filename : String) :
    Harmless store filename (stored (store.remove filename)) := by
  intro disk error changed hfails
  cases hremove : disk.removeFile (store.resolve filename) with
  | error cause =>
    rw [run_stored (Store.run_remove_error hremove)] at hfails
    cases hfails
    exact .of_untouched rfl
  | ok between =>
    obtain ⟨after, file, bound, kept, hrun, -⟩ := Store.removed hbase hremove
    rw [run_stored hrun] at hfails
    cases hfails

theorem harmless_create (resource : Resource) (filename : String) (declaration : Json) :
    Harmless resource.store filename (resource.create filename declaration) := by
  unfold create
  apply (looks_generate resource declaration).before
  intro text
  exact (harmless_write resource.store filename text).map _

theorem harmless_apply (resource : Resource) (filename : String) (declaration : Json) :
    Harmless resource.store filename (resource.apply filename declaration) := by
  unfold apply
  apply (looks_generate resource declaration).before
  intro text
  apply (looks_compare resource filename text).before
  intro outcome
  split
  · exact (looks_pure _).harmless
  · exact (harmless_write resource.store filename text).map _

theorem harmless_update (resource : Resource) (filename : String) (declaration : Json) :
    Harmless resource.store filename (resource.update filename declaration) := by
  rw [update_eq_apply]
  exact (harmless_apply resource filename declaration).map _

theorem harmless_perform
    (hbase : resource.store.baseDirectory.isAbsolute = true ∨
      resource.store.baseDirectory.normalize.components.head? ≠ some .up) (request : Request) :
    Harmless resource.store request.filename (request.perform resource) := by
  cases request with
  | create filename declaration => exact (harmless_create resource filename declaration).map _
  | update filename declaration => exact (harmless_update resource filename declaration).map _
  | apply filename declaration => exact (harmless_apply resource filename declaration).map _
  | plan filename declaration => exact (looks_plan resource filename declaration).harmless.map _
  | read state => exact (looks_view resource.store state.filename).harmless.map _
  | delete state => exact (harmless_remove hbase state.filename).map _

/-- Neither a request that fails nor a look at a file that fails has damaged anything. -/
theorem failed_spares
    (hbase : resource.store.baseDirectory.isAbsolute = true ∨
      resource.store.baseDirectory.normalize.components.head? ≠ some .up) (request : Request)
    (h : run (request.perform resource) disk = (.error error, changed) ∨
      run (view resource.store request.filename) disk = (.error error, changed)) :
    Spares resource.store request.filename error disk changed := by
  rcases h with hperform | hview
  · exact harmless_perform hbase request disk error changed hperform
  · exact (looks_view _ _).harmless disk error changed hview

/-- The filename asks for a directory, which is refused when its parents have been made. -/
theorem failed_spares_lib :
    ∃ error changed,
      run ((Request.create "a/main.go/" (packageNamed "main")).perform sample) withLib =
          (.error error, changed) ∧
        Spares sample.store "a/main.go/" error withLib changed ∧
        withLib.tree.lookup ["out", "gen", "a"] = none ∧
        changed.tree.lookup ["out", "gen", "a"] = some .directory := by
  have hfails : run ((Request.create "a/main.go/" (packageNamed "main")).perform sample) withLib =
      (.error (.storage ⟨.replace, sample.store.resolve "a/main.go/", .notADirectory⟩),
        (run ((Request.create "a/main.go/" (packageNamed "main")).perform sample) withLib).2) :=
    Prod.ext rfl rfl
  exact ⟨_, _, hfails, failed_spares (.inl rfl) (.create "a/main.go/" _) (.inl hfails), rfl, rfl⟩

/-- The root has no parent, so it is the base directory that is made before the write is refused,
and that is not on the way to the root. -/
theorem root_makes_base :
    ∃ changed, run (sample.create "/" (packageNamed "main")) bare =
        (.error (.storage ⟨.replace, Storage.Path.rootPath, .busy⟩), changed) ∧
      bare.tree.lookup ["out", "gen"] = none ∧
      changed.tree.lookup ["out", "gen"] = some .directory ∧
      (sample.store.resolve "/").parent? = none ∧
      ¬ changed.OnWay (sample.store.resolve "/") ["out", "gen"] := by
  refine ⟨_, Prod.ext rfl rfl, rfl, rfl, rfl, ?_⟩
  rintro ⟨pieces, hpieces, hwalk⟩
  obtain rfl := List.prefix_nil.1 hpieces
  cases hwalk

end Resource

end DeclaredSource
