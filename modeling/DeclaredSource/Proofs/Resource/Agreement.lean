import DeclaredSource.Proofs.Resource.FlatMap
import DeclaredSource.Proofs.Storage.Writing

/-!
# Planning, applying and converging

On every disk and for every filename, planning tells what applying will do and updating does the
same, and whatever succeeds in writing leaves a file that is in step with its declaration: it is
read back, and nothing is left to plan for it. An outcome that says a file is created is true of
every path that does not climb out of a directory that is missing.
-/

namespace DeclaredSource.Resource

open Storage Disk

variable {resource : Resource} {filename text : String} {declaration : Json}
  {disk changed : Disk} {state : FileState} {result : Outcome}

theorem plan_still (resource : Resource) (filename : String) (declaration : Json) (disk : Disk) :
    (run (resource.plan filename declaration) disk).2 = disk := by
  cases courses resource filename declaration disk with
  | fails error plan => rw [plan]
  | same text generated holds plan => rw [plan]
  | writes text existing result changed generated read other written plan => rw [plan]

/-- What planning fails of, applying and updating fail of before anything is written. -/
theorem fails_as_planned {error : ResourceError}
    (h : (run (resource.plan filename declaration) disk).1 = .error error) :
    run (resource.apply filename declaration) disk = (.error error, disk) ∧
      run (resource.update filename declaration) disk = (.error error, disk) := by
  cases courses resource filename declaration disk with
  | fails error' plan apply =>
    rw [plan] at h
    obtain rfl := Except.error.inj h
    refine ⟨apply, ?_⟩
    rw [run_update, apply]
    rfl
  | same text generated holds plan =>
    rw [plan] at h
    cases h
  | writes text existing result changed generated read other written plan =>
    rw [plan] at h
    cases h

theorem applies_as_planned
    (h : run (resource.apply filename declaration) disk = (.ok (state, result), changed)) :
    (run (resource.plan filename declaration) disk).1 = .ok result ∧ state.filename = filename ∧
      Generation.generate resource.mode declaration = .ok state.contents ∧
      (result = .noChange → changed = disk) := by
  cases courses resource filename declaration disk with
  | fails error plan apply =>
    rw [apply] at h
    cases h
  | same text generated holds plan apply =>
    rw [apply] at h
    cases h
    rw [plan]
    exact ⟨rfl, rfl, generated, fun _ ↦ rfl⟩
  | writes text existing written after generated read other _ plan apply =>
    rw [apply, Prod.mk.injEq, writing_eq_ok, Prod.mk.injEq] at h
    obtain ⟨⟨-, rfl, rfl⟩, rfl⟩ := h
    rw [plan]
    exact ⟨rfl, rfl, generated, fun hsame ↦ absurd (changeFrom_eq_noChange.1 hsame) other⟩

theorem plan_eq_noChange :
    (run (resource.plan filename declaration) disk).1 = .ok .noChange ↔
      ∃ text, Generation.generate resource.mode declaration = .ok text ∧
        disk.readFile (resource.store.resolve filename) = .ok text.toUTF8 := by
  constructor
  · intro h
    cases courses resource filename declaration disk with
    | fails error plan =>
      rw [plan] at h
      cases h
    | same text generated holds => exact ⟨text, generated, holds⟩
    | writes text existing written after generated read other _ plan =>
      rw [plan] at h
      exact absurd (changeFrom_eq_noChange.1 (Except.ok.inj h)) other
  · rintro ⟨text, hgenerate, hholds⟩
    rw [run_plan hgenerate (Store.readIfPresent_ok hholds), changeFrom_eq_noChange.2 rfl]

/-- Applying something that is there already. -/
theorem apply_of_holds (hgenerate : Generation.generate resource.mode declaration = .ok text)
    (hholds : disk.readFile (resource.store.resolve filename) = .ok text.toUTF8) :
    run (resource.apply filename declaration) disk = (.ok (⟨filename, text⟩, .noChange), disk) := by
  rw [run_apply_same hgenerate (Store.readIfPresent_ok hholds), changeFrom_eq_noChange.2 rfl]

/-- Planning changes nothing. Applying and updating fail as planning fails; otherwise applying does
what was planned, updating does what applying does, and no change is made exactly when the file
holds the generated text. -/
theorem plan_apply_update_agree (resource : Resource) (filename : String) (declaration : Json)
    (disk : Disk) :
    (run (resource.plan filename declaration) disk).2 = disk ∧
      (∀ error, (run (resource.plan filename declaration) disk).1 = .error error →
        run (resource.apply filename declaration) disk = (.error error, disk) ∧
          run (resource.update filename declaration) disk = (.error error, disk)) ∧
      (∀ state outcome changed,
        run (resource.apply filename declaration) disk = (.ok (state, outcome), changed) →
          (run (resource.plan filename declaration) disk).1 = .ok outcome ∧
            state.filename = filename ∧
            Generation.generate resource.mode declaration = .ok state.contents ∧
            (outcome = .noChange → changed = disk)) ∧
      run (resource.update filename declaration) disk =
        ((run (resource.apply filename declaration) disk).1.map Prod.fst,
          (run (resource.apply filename declaration) disk).2) ∧
      ((run (resource.plan filename declaration) disk).1 = .ok .noChange ↔
        ∃ text, Generation.generate resource.mode declaration = .ok text ∧
          disk.readFile (resource.store.resolve filename) = .ok text.toUTF8) ∧
      ((∃ state, (run (resource.apply filename declaration) disk).1 = .ok (state, .noChange)) ↔
        ∃ text, Generation.generate resource.mode declaration = .ok text ∧
          disk.readFile (resource.store.resolve filename) = .ok text.toUTF8) := by
  refine ⟨plan_still resource filename declaration disk, fun error ↦ fails_as_planned,
    fun state outcome changed ↦ applies_as_planned,
    run_update resource filename declaration disk, plan_eq_noChange, ?_⟩
  constructor
  · rintro ⟨state, happly⟩
    exact plan_eq_noChange.1 (applies_as_planned (Prod.ext happly rfl)).1
  · rintro ⟨text, hgenerate, hholds⟩
    exact ⟨_, congrArg Prod.fst (apply_of_holds hgenerate hholds)⟩

/-- The file is as its declaration has it, and the state says so. -/
structure InStep (resource : Resource) (declaration : Json) (state : FileState) (disk : Disk) :
    Prop where
  generated : Generation.generate resource.mode declaration = .ok state.contents
  holds : disk.readFile (resource.store.resolve state.filename) = .ok state.contents.toUTF8

theorem inStep_of_write (hgenerate : Generation.generate resource.mode declaration = .ok text)
    {path : Storage.Path}
    (hwrite : run (resource.store.write filename text) disk = (.ok path, changed)) :
    resource.InStep declaration ⟨filename, text⟩ changed :=
  ⟨hgenerate, Store.readFile_of_write hwrite⟩

theorem create_inStep
    (h : run (resource.create filename declaration) disk = (.ok state, changed)) :
    state.filename = filename ∧ resource.InStep declaration state changed := by
  cases hgenerate : Generation.generate resource.mode declaration with
  | error error =>
    have hfails : run (resource.create filename declaration) disk =
        (.error (.generation error), disk) := run_bind_error (run_generate_error hgenerate disk)
    rw [hfails] at h
    cases h
  | ok text =>
    cases hwrite : run (resource.store.write filename text) disk with
    | mk written after =>
      rw [run_create hgenerate hwrite, Prod.mk.injEq, writing_eq_ok] at h
      obtain ⟨⟨⟨path, rfl⟩, rfl⟩, rfl⟩ := h
      exact ⟨rfl, inStep_of_write hgenerate hwrite⟩

theorem apply_inStep
    (h : run (resource.apply filename declaration) disk = (.ok (state, result), changed)) :
    state.filename = filename ∧ resource.InStep declaration state changed := by
  cases courses resource filename declaration disk with
  | fails error plan apply =>
    rw [apply] at h
    cases h
  | same text generated holds plan apply =>
    rw [apply] at h
    cases h
    exact ⟨rfl, generated, holds⟩
  | writes text existing written after generated read other hwrite plan apply =>
    rw [apply, Prod.mk.injEq, writing_eq_ok, Prod.mk.injEq] at h
    obtain ⟨⟨⟨path, rfl⟩, rfl, -⟩, rfl⟩ := h
    exact ⟨rfl, inStep_of_write generated hwrite⟩

theorem apply_workingDirectory
    (h : run (resource.apply filename declaration) disk = (.ok (state, result), changed)) :
    changed.workingDirectory = disk.workingDirectory := by
  cases courses resource filename declaration disk with
  | fails error plan apply =>
    rw [apply] at h
    cases h
  | same text generated holds plan apply =>
    rw [apply] at h
    cases h
    rfl
  | writes text existing written after generated read other hwrite plan apply =>
    rw [apply, Prod.mk.injEq, writing_eq_ok] at h
    obtain ⟨⟨⟨path, rfl⟩, -⟩, rfl⟩ := h
    exact Store.write_workingDirectory hwrite

theorem update_inStep
    (h : run (resource.update filename declaration) disk = (.ok state, changed)) :
    state.filename = filename ∧ resource.InStep declaration state changed := by
  rw [update_eq_apply] at h
  obtain ⟨applied, between, happly, hstate⟩ := run_bind_eq_ok.1 h
  cases hstate
  exact apply_inStep happly

theorem InStep.view (h : resource.InStep declaration state disk) :
    run (Resource.view resource.store state.filename) disk = (.ok state, disk) :=
  run_bind_pure (run_stored (Store.read_ok h.holds)) _

/-- Once creating, updating or applying has succeeded, the state is what is read, nothing is left to
plan, and applying or updating again answers the same and changes nothing. -/
theorem converges
    (h : run (resource.create filename declaration) disk = (.ok state, changed) ∨
      run (resource.update filename declaration) disk = (.ok state, changed) ∨
      ∃ outcome, run (resource.apply filename declaration) disk = (.ok (state, outcome), changed)) :
    run (resource.read state) changed = (.ok state, changed) ∧
      run (view resource.store filename) changed = (.ok state, changed) ∧
      run (resource.plan filename declaration) changed = (.ok .noChange, changed) ∧
      run (resource.apply filename declaration) changed = (.ok (state, .noChange), changed) ∧
      run (resource.update filename declaration) changed = (.ok state, changed) := by
  have hinStep : state.filename = filename ∧ resource.InStep declaration state changed := by
    rcases h with hcreate | hupdate | ⟨outcome, happly⟩
    · exact create_inStep hcreate
    · exact update_inStep hupdate
    · exact apply_inStep happly
  obtain ⟨rfl, hinStep⟩ := hinStep
  have happly := apply_of_holds hinStep.generated hinStep.holds
  refine ⟨hinStep.view, hinStep.view, Prod.ext ?_ (plan_still _ _ _ _), happly, ?_⟩
  · exact plan_eq_noChange.2 ⟨state.contents, hinStep.generated, hinStep.holds⟩
  · rw [run_update, happly]
    rfl

/-- A disk with one file, right in the base directory. -/
def withLib : Disk :=
  (run (sample.create "lib.go" (packageNamed "lib")) bare).2

/-- A disk with one file, alone in a directory of its own. -/
def withPackage : Disk :=
  (run (sample.create "pkg/lib.go" (packageNamed "lib")) bare).2

def withOther : Disk :=
  (run (sample.apply "../gen/./lib.go" (packageNamed "other")) withLib).2

theorem converges_with_other :
    run (sample.read ⟨"../gen/./lib.go", "package other\n"⟩) withOther =
        (.ok ⟨"../gen/./lib.go", "package other\n"⟩, withOther) ∧
      run (sample.plan "../gen/./lib.go" (packageNamed "other")) withOther =
        (.ok .noChange, withOther) := by
  have happly : run (sample.apply "../gen/./lib.go" (packageNamed "other")) withLib =
      (.ok (⟨"../gen/./lib.go", "package other\n"⟩,
        .update "-   1 | package lib\n+   1 | package other\n"), withOther) := Prod.ext rfl rfl
  obtain ⟨hread, -, hplan, -⟩ := converges (.inr (.inr ⟨_, happly⟩))
  exact ⟨hread, hplan⟩

/-- When a file is said to be created, every other file keeps its contents. So does whatever stood
where the file is now, and nothing did, unless the path climbs out of a directory that was
missing. -/
theorem create_keeps_files
    (h : run (resource.apply filename declaration) disk = (.ok (state, .create text), changed)) :
    disk.readFile (resource.store.resolve filename) = .error .notFound ∧
      ∃ file, changed.locate (resource.store.resolve filename) = .ok (FileTree.under file) ∧
        (∀ names entry, names ≠ file → disk.tree.lookup names = some entry →
          changed.tree.lookup names = some entry) ∧
        (disk.ClimbsWithin (resource.store.resolve filename) → disk.tree.lookup file = none ∧
          ∀ names entry, disk.tree.lookup names = some entry →
            changed.tree.lookup names = some entry) := by
  cases courses resource filename declaration disk with
  | fails error plan apply =>
    rw [apply] at h
    cases h
  | same text' generated holds plan apply =>
    rw [apply] at h
    cases h
  | writes text' existing written after generated read other hwrite plan apply =>
    rw [apply, Prod.mk.injEq, writing_eq_ok, Prod.mk.injEq, changeFrom_eq_create] at h
    obtain ⟨⟨⟨path, rfl⟩, -, rfl, -⟩, rfl⟩ := h
    have hmissing := Store.readFile_of_readIfPresent_none read
    obtain ⟨file, hlocate, hkeeps, hnew⟩ := Store.write_keeps hwrite
    refine ⟨hmissing, file, hlocate, hkeeps, fun hclimbs ↦ ⟨hnew hmissing hclimbs, ?_⟩⟩
    intro names entry hfound
    refine hkeeps names entry ?_ hfound
    rintro rfl
    rw [hnew hmissing hclimbs] at hfound
    cases hfound

theorem create_keeps_lib :
    withLib.tree.lookup ["out", "gen", "lib.go"] = some (.file "package lib\n".toUTF8) ∧
      (run (sample.apply "../gen/main.go" (packageNamed "main")) withLib).2.tree.lookup
        ["out", "gen", "lib.go"] = some (.file "package lib\n".toUTF8) := by
  have happly : run (sample.apply "../gen/main.go" (packageNamed "main")) withLib =
      (.ok (⟨"../gen/main.go", "package main\n"⟩, .create "package main\n"),
        (run (sample.apply "../gen/main.go" (packageNamed "main")) withLib).2) := Prod.ext rfl rfl
  have hclimbs : withLib.ClimbsWithin (sample.store.resolve "../gen/main.go") :=
    ⟨["out", "gen", "..", "gen"], ["main.go"], FileTree.under ["out", "gen"], rfl, rfl, by decide⟩
  have hlib : withLib.tree.lookup ["out", "gen", "lib.go"] =
      some (.file "package lib\n".toUTF8) := rfl
  obtain ⟨-, file, -, -, hkeeps⟩ := create_keeps_files happly
  exact ⟨hlib, (hkeeps hclimbs).2 _ _ hlib⟩

/-- The path climbs out of a directory that is missing: reading it finds nothing, so the file is
said to be created, but once the directory is made it leads to a file that was there. -/
theorem create_overwrites_lib :
    ∃ changed, run (sample.apply "missing/../lib.go" (packageNamed "other")) withLib =
        (.ok (⟨"missing/../lib.go", "package other\n"⟩, .create "package other\n"), changed) ∧
      withLib.tree.lookup ["out", "gen", "lib.go"] = some (.file "package lib\n".toUTF8) ∧
      changed.tree.lookup ["out", "gen", "lib.go"] = some (.file "package other\n".toUTF8) :=
  ⟨_, Prod.ext rfl rfl, rfl, rfl⟩

end DeclaredSource.Resource
