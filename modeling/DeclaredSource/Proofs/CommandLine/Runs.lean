import DeclaredSource.CommandLine.Command
import DeclaredSource.Proofs.Resource.Agreement

/-!
# Command lines on a disk

What a command line comes to on a disk, given what is on standard input. A command line is refused
or it is carried out. Planning and applying prepare alike: they load the declaration, choose the
base directory, and go on with the resource. Preparing changes nothing, and whatever it fails of
both commands fail of.
-/

namespace DeclaredSource.CommandLine

open Storage

variable {α : Type} {input : ByteArray} {environment : Option String} {arguments : List String}
  {given other : Invocation} {disk changed : Disk} {declaration : Json} {resource : Resource}

/-- What a command line comes to on a disk, with some bytes on standard input. -/
def runOn (input : ByteArray) (environment : Option String) (arguments : List String)
    (disk : Disk) : Ending × Disk :=
  (run (pure input) environment arguments : StateM Disk Ending) disk

/-- What is reported of a command that was carried out. -/
def reportOf : Except Failure Report → Report
  | .ok report => report
  | .error failure => ⟨failureCode, "", failure.message⟩

theorem runOn_refused {usage : Usage} (h : invocation environment arguments = .error usage)
    (input : ByteArray) (disk : Disk) :
    runOn input environment arguments disk = (.refused usage, disk) := by
  rw [runOn, run, h]
  rfl

theorem runOn_accepted (h : invocation environment arguments = .ok given)
    {result : Except Failure Report}
    (hexecute : Disk.run (execute (pure input) environment given) disk = (result, changed)) :
    runOn input environment arguments disk = (.finished (reportOf result), changed) := by
  have hrun : (ExceptT.run (execute (pure input) environment given) : StateM Disk _) disk =
      (result, changed) := hexecute
  have hperform : (perform (pure input) environment given : StateM Disk Report) disk =
      (reportOf result, changed) := by
    unfold perform
    apply (Disk.bind_apply hrun).trans
    cases result <;> rfl
  rw [runOn, run, h]
  exact Disk.bind_apply hperform

/-- The bytes that a declaration is read from. -/
def declarationBytes (input : ByteArray) (operand : String) (disk : Disk) :
    Except FileError ByteArray :=
  if isStandardInput (Path.ofString operand) then .ok input
  else disk.readFile (Path.ofString operand)

/-- The declaration that the bytes hold. -/
def declared (operand : String) : Except FileError ByteArray → Except Failure Json
  | .error cause => .error (loadFailure (Path.ofString operand) cause)
  | .ok contents => parseDeclaration (Path.ofString operand) contents

theorem run_loadDeclaration (input : ByteArray) (operand : String) (disk : Disk) :
    Disk.run (loadDeclaration (pure input) operand) disk =
      (declared operand (declarationBytes input operand disk), disk) := by
  have hload : (loadBytes (pure input) (Path.ofString operand) : StateM Disk _) disk =
      (declarationBytes input operand disk, disk) := by
    rw [loadBytes, declarationBytes]
    split <;> rfl
  change ((loadBytes (pure input) (Path.ofString operand) : StateM Disk _) >>= _) disk = _
  apply (Disk.bind_apply hload).trans
  cases declarationBytes input operand disk <;> rfl

/-- The base directory that is chosen. -/
def baseOf (environment : Option String) (given : Invocation) (disk : Disk) :
    Except Failure Path :=
  match Settings.chosen? given.baseDirectory environment with
  | some text => .ok (Path.ofString text)
  | none => disk.workingDirectoryPath.mapError fun cause ↦
    .resource (.storage ⟨.findWorkingDirectory, Path.ofString ".", cause⟩)

theorem run_managed {operation : ExceptT ResourceError (StateM Disk) α}
    {result : Except ResourceError α} (h : Disk.run operation disk = (result, changed)) :
    Disk.run (managed operation) disk = (result.mapError .resource, changed) := by
  have hmanaged : Disk.run (managed operation) disk =
      ((Disk.run operation disk).1.mapError .resource, (Disk.run operation disk).2) := rfl
  rw [hmanaged, h]

theorem run_baseDirectory (environment : Option String) (given : Invocation) (disk : Disk) :
    Disk.run (managed (Resource.stored
      (Settings.baseDirectory given.baseDirectory environment))) disk =
        (baseOf environment given disk, disk) := by
  rw [baseOf, Settings.baseDirectory]
  cases Settings.chosen? given.baseDirectory environment with
  | some text => rfl
  | none =>
    have hlook : (Files.workingDirectory : StateM Disk _) disk =
        (disk.workingDirectoryPath, disk) := rfl
    cases hpath : disk.workingDirectoryPath with
    | ok path =>
      rw [hpath] at hlook
      exact run_managed (Resource.run_stored (Store.run_onPath_ok hlook .findWorkingDirectory _))
    | error cause =>
      rw [hpath] at hlook
      exact run_managed (Resource.run_stored (Store.run_onPath_error hlook .findWorkingDirectory _))

theorem run_store (environment : Option String) (given : Invocation) (disk : Disk) :
    Disk.run (store environment given) disk =
      ((baseOf environment given disk).map Store.mk, disk) := by
  exact Disk.run_bind_pure (run_baseDirectory environment given disk) Store.mk

theorem run_resource (environment : Option String) (given : Invocation) (disk : Disk) :
    Disk.run (CommandLine.resource environment given) disk =
      ((baseOf environment given disk).map fun base ↦ ⟨⟨base⟩, mode given⟩, disk) := by
  have hstore := Disk.run_bind_pure (run_store environment given disk)
    fun store ↦ (⟨store, mode given⟩ : Resource)
  apply hstore.trans
  cases baseOf environment given disk <;> rfl

/-- The declaration can be loaded, and the base directory chosen. -/
structure Ready (input : ByteArray) (environment : Option String) (given : Invocation)
    (disk : Disk) (declaration : Json) (resource : Resource) : Prop where
  loaded : declared given.operand (declarationBytes input given.operand disk) = .ok declaration
  chosen : baseOf environment given disk = .ok resource.store.baseDirectory
  mode : resource.mode = CommandLine.mode given

theorem Ready.unique {declaration' : Json} {resource' : Resource}
    (h : Ready input environment given disk declaration resource)
    (h' : Ready input environment given disk declaration' resource') :
    declaration = declaration' ∧ resource = resource' := by
  have hdeclaration : declaration = declaration' := Except.ok.inj (h.loaded.symm.trans h'.loaded)
  have hbase : resource.store.baseDirectory = resource'.store.baseDirectory :=
    Except.ok.inj (h.chosen.symm.trans h'.chosen)
  obtain ⟨⟨base⟩, mode⟩ := resource
  obtain ⟨⟨base'⟩, mode'⟩ := resource'
  obtain rfl : base = base' := hbase
  obtain rfl : mode = mode' := h.mode.trans h'.mode.symm
  exact ⟨hdeclaration, rfl⟩

/-- Loads the declaration, chooses the base directory and goes on. -/
def prepare (input : ByteArray) (environment : Option String) (given : Invocation)
    (next : Json → Resource → ExceptT Failure (StateM Disk) α) :
    ExceptT Failure (StateM Disk) α := do
  let declaration ← loadDeclaration (pure input) given.operand
  let resource ← CommandLine.resource environment given
  next declaration resource

theorem Ready.run_prepare (h : Ready input environment given disk declaration resource)
    (next : Json → Resource → ExceptT Failure (StateM Disk) α) :
    Disk.run (prepare input environment given next) disk =
      Disk.run (next declaration resource) disk := by
  have hload := run_loadDeclaration input given.operand disk
  have hresource := run_resource environment given disk
  rw [h.loaded] at hload
  rw [h.chosen, ← h.mode] at hresource
  exact (Disk.run_bind_ok hload).trans (Disk.run_bind_ok hresource)

theorem fails_or_ready (input : ByteArray) (environment : Option String) (given : Invocation)
    (disk : Disk) :
    (∃ failure, ∀ next : Json → Resource → ExceptT Failure (StateM Disk) Report,
      Disk.run (prepare input environment given next) disk = (.error failure, disk)) ∨
      ∃ declaration resource, Ready input environment given disk declaration resource := by
  have hload := run_loadDeclaration input given.operand disk
  have hresource := run_resource environment given disk
  cases hdeclared : declared given.operand (declarationBytes input given.operand disk) with
  | error failure =>
    rw [hdeclared] at hload
    exact .inl ⟨failure, fun next ↦ Disk.run_bind_error hload⟩
  | ok declaration =>
    rw [hdeclared] at hload
    cases hbase : baseOf environment given disk with
    | error failure =>
      rw [hbase] at hresource
      refine .inl ⟨failure, fun next ↦ ?_⟩
      exact (Disk.run_bind_ok hload).trans (Disk.run_bind_error hresource)
    | ok base => exact .inr ⟨declaration, ⟨⟨base⟩, mode given⟩, hdeclared, hbase, rfl⟩

/-- Only the operand and the global options matter to preparing. -/
theorem prepare_congr (hoperand : other.operand = given.operand)
    (hstrict : other.strict = given.strict) (hbase : other.baseDirectory = given.baseDirectory)
    (next : Json → Resource → ExceptT Failure (StateM Disk) α) :
    prepare input environment other next = prepare input environment given next := by
  have hstore : (store environment other : ExceptT Failure (StateM Disk) Store) =
      store environment given := by
    unfold store
    rw [hbase]
  have hresource :
      (CommandLine.resource environment other : ExceptT Failure (StateM Disk) Resource) =
        CommandLine.resource environment given := by
    unfold CommandLine.resource
    rw [hstore, CommandLine.mode, hstrict]
    rfl
  unfold prepare
  rw [hoperand, hresource]

theorem baseOf_congr (hbase : other.baseDirectory = given.baseDirectory)
    (hworking : changed.workingDirectory = disk.workingDirectory) :
    baseOf environment other changed = baseOf environment given disk := by
  rw [baseOf, baseOf, hbase, Disk.workingDirectoryPath, Disk.workingDirectoryPath, hworking]

/-- Nothing else matters to whether they can be carried out either, on any disk where the same
bytes are read and the working directory is the same. -/
theorem Ready.congr {later : ByteArray}
    (h : Ready input environment given disk declaration resource)
    (hoperand : other.operand = given.operand) (hstrict : other.strict = given.strict)
    (hbase : other.baseDirectory = given.baseDirectory)
    (hbytes : declarationBytes later given.operand changed =
      declarationBytes input given.operand disk)
    (hworking : changed.workingDirectory = disk.workingDirectory) :
    Ready later environment other changed declaration resource where
  loaded := by rw [hoperand, hbytes, h.loaded]
  chosen := by rw [baseOf_congr hbase hworking, h.chosen]
  mode := by rw [h.mode, CommandLine.mode, CommandLine.mode, hstrict]

/-- What planning reports. -/
def planReport (given : Invocation) (outcome : Outcome) : Report :=
  ⟨if given.detailedExitCode && outcome ≠ .noChange then pendingCode else successCode,
    planText given.filename outcome, ""⟩

theorem planReport_noChange (given : Invocation) :
    (planReport given .noChange).exitCode = successCode := by
  simp [planReport]

theorem planReport_change {outcome : Outcome} (hdetailed : given.detailedExitCode = true)
    (hchange : outcome ≠ .noChange) : (planReport given outcome).exitCode = pendingCode := by
  simp [planReport, hdetailed, hchange]

/-- What applying reports. -/
def applyReport (resource : Resource) (given : Invocation) (applied : FileState × Outcome) :
    Report :=
  printed (applyText (resource.store.resolve applied.1.filename) given.filename applied.2)

theorem execute_plan (h : given.command = .plan) :
    execute (pure input) environment given =
      prepare input environment given fun declaration resource ↦
        managed (resource.plan given.filename declaration) >>= fun outcome ↦
          pure (planReport given outcome) := by
  unfold execute
  rw [h]
  rfl

theorem execute_apply (h : given.command = .apply) :
    execute (pure input) environment given =
      prepare input environment given fun declaration resource ↦
        managed (resource.apply given.filename declaration) >>= fun applied ↦
          pure (applyReport resource given applied) := by
  unfold execute
  rw [h]
  rfl

theorem runOn_plan (invoked : invocation environment arguments = .ok given)
    (hcommand : given.command = .plan)
    (h : Ready input environment given disk declaration resource)
    {result : Except ResourceError Outcome}
    (hplan : Disk.run (resource.plan given.filename declaration) disk = (result, changed)) :
    runOn input environment arguments disk =
      (.finished (reportOf ((result.mapError .resource).map (planReport given))), changed) := by
  apply runOn_accepted invoked
  rw [execute_plan hcommand, h.run_prepare]
  exact Disk.run_bind_pure (run_managed hplan) (planReport given)

theorem runOn_apply (invoked : invocation environment arguments = .ok given)
    (hcommand : given.command = .apply)
    (h : Ready input environment given disk declaration resource)
    {result : Except ResourceError (FileState × Outcome)}
    (happly : Disk.run (resource.apply given.filename declaration) disk = (result, changed)) :
    runOn input environment arguments disk =
      (.finished (reportOf ((result.mapError .resource).map (applyReport resource given))),
        changed) := by
  apply runOn_accepted invoked
  rw [execute_apply hcommand, h.run_prepare]
  exact Disk.run_bind_pure (run_managed happly) (applyReport resource given)

theorem runOn_render (invoked : invocation environment arguments = .ok given)
    (hcommand : given.command = .render)
    (hloaded : declared given.operand (declarationBytes input given.operand disk) = .ok declaration)
    {text : String} (hgenerate : Generation.generate (mode given) declaration = .ok text) :
    runOn input environment arguments disk = (.finished (printed text), disk) := by
  have hload := run_loadDeclaration input given.operand disk
  rw [hloaded] at hload
  have hrender : Disk.run (execute (pure input) environment given) disk =
      (.ok (printed text), disk) := by
    unfold execute
    rw [hcommand]
    dsimp only
    unfold render
    apply (Disk.run_bind_ok hload).trans
    rw [hgenerate]
    rfl
  exact runOn_accepted invoked hrender

theorem runOn_read (invoked : invocation environment arguments = .ok given)
    (hcommand : given.command = .read) (hraw : given.json = false) {base : Path} {state : FileState}
    (hbase : baseOf environment given disk = .ok base)
    (hview : Disk.run (Resource.view ⟨base⟩ given.operand) disk = (.ok state, disk)) :
    runOn input environment arguments disk = (.finished (printed state.contents), disk) := by
  have hstore := run_store environment given disk
  rw [hbase] at hstore
  have hread : Disk.run (execute (pure input) environment given) disk =
      (.ok (printed state.contents), disk) := by
    unfold execute
    rw [hcommand]
    dsimp only
    unfold read
    apply (Disk.run_bind_ok hstore).trans
    apply (Disk.run_bind_ok (run_managed hview)).trans
    rw [hraw]
    rfl
  exact runOn_accepted invoked hread

end DeclaredSource.CommandLine
