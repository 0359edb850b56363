import DeclaredSource.Proofs.Resource.Agreement
import DeclaredSource.Proofs.Storage.SettlingRuns

/-!
# Requests for different files

Creating, updating, applying and deleting settle a file. So for two filenames of which neither is
on the way to the other, it makes no difference which request comes first: not to whether both
succeed, not to what they answer, and not to what is on disk afterwards.
-/

namespace DeclaredSource.Resource

open Storage Disk

variable {resource : Resource} {store : Store} {filename : String} {declaration : Json}
  {base key key' : List String}

theorem Settling.stored {α : Type} {operation : ExceptT StoreError (StateM Disk) α}
    (h : Settling operation base key) : Settling (stored operation) base key := by
  intro disk value changed hrun
  cases hoperation : run operation disk with
  | mk result after =>
    rw [run_stored hoperation] at hrun
    cases result with
    | error error => cases hrun
    | ok found =>
      cases hrun
      obtain ⟨before, after, hholds, hsettles⟩ := h disk value changed hoperation
      refine ⟨before, after, hholds, fun other hother ↦ ?_⟩
      obtain ⟨settled, hsettled, hlookup⟩ := hsettles other hother
      exact ⟨settled, run_stored hsettled, hlookup⟩

theorem settling_create (hdenotes : (resource.store.resolve filename).Denotes key) :
    Settling (resource.create filename declaration) base key := by
  intro disk state changed hrun
  cases hgenerate : Generation.generate resource.mode declaration with
  | error error =>
    have hfails : run (resource.create filename declaration) disk =
        (.error (.generation error), disk) := run_bind_error (run_generate_error hgenerate disk)
    rw [hfails] at hrun
    cases hrun
  | ok text =>
    cases hwrite : run (resource.store.write filename text) disk with
    | mk written after =>
      rw [run_create hgenerate hwrite, Prod.mk.injEq, writing_eq_ok] at hrun
      obtain ⟨⟨⟨path, rfl⟩, rfl⟩, rfl⟩ := hrun
      obtain ⟨outer, last, before, rfl, hplaced, hholds⟩ := Store.placed_of_write hdenotes hwrite
      refine ⟨before, some text.toUTF8, hholds, fun other hother ↦ ?_⟩
      obtain ⟨settled, hsettled, hlookup⟩ :=
        Store.settles_write hplaced base before text other hother
      exact ⟨settled, run_create hgenerate hsettled, hlookup⟩

theorem settling_apply (hdenotes : (resource.store.resolve filename).Denotes key) :
    Settling (resource.apply filename declaration) base key := by
  intro disk applied changed hrun
  cases courses resource filename declaration disk with
  | fails error plan apply =>
    rw [apply] at hrun
    cases hrun
  | same text generated holds plan apply =>
    rw [apply] at hrun
    cases hrun
    obtain ⟨hspells, hend, hfile⟩ := spells_of_readFile hdenotes holds
    obtain ⟨outer, last, rfl⟩ := hspells.exists_concat hend
    refine ⟨some text.toUTF8, some text.toUTF8, FileTree.holds_of_file hfile, fun other hother ↦ ?_⟩
    have hread := readFile_file (hspells.reaches other) hend hother.found
    exact ⟨other, apply_of_holds generated hread, (FileTree.settle_of_file base hother.found).symm⟩
  | writes text existing result after generated read differs written plan apply =>
    rw [apply, Prod.mk.injEq, writing_eq_ok] at hrun
    obtain ⟨⟨⟨path, rfl⟩, rfl⟩, rfl⟩ := hrun
    obtain ⟨outer, last, before, rfl, hplaced, hholds⟩ := Store.placed_of_write hdenotes written
    have hexisting := Store.holds_of_readIfPresent hplaced.path hplaced.ends hholds read
    refine ⟨before, some text.toUTF8, hholds, fun other hother ↦ ?_⟩
    obtain ⟨settled, hsettled, hlookup⟩ :=
      Store.settles_write hplaced base before text other hother
    rw [← hexisting] at hother
    have hread := Store.readIfPresent_of_holds hplaced.path hplaced.ends hother
    exact ⟨settled, run_apply_other generated differs hread hsettled, hlookup⟩

theorem settling_update (hdenotes : (resource.store.resolve filename).Denotes key) :
    Settling (resource.update filename declaration) base key := by
  rw [update_eq_apply]
  exact (settling_apply hdenotes).map _

theorem settling_delete {state : FileState} (hbase : resource.store.baseDirectory.Denotes base)
    (hdenotes : (resource.store.resolve state.filename).Denotes (base ++ key))
    (present : key ≠ []) : Settling (resource.delete state) base (base ++ key) := by
  apply Settling.stored
  intro disk value changed hrun
  obtain ⟨outer, last, rfl⟩ := (List.eq_nil_or_concat' key).resolve_left present
  obtain ⟨hspells, hend, contents, hfile⟩ := Store.spells_of_remove hdenotes hrun
  exact ⟨some contents, none, FileTree.holds_of_file hfile,
    Store.settles_remove hbase hspells hend contents⟩

/-- Every request but to plan and to read. -/
def Request.Alters : Request → Prop
  | .create .. | .update .. | .apply .. | .delete .. => True
  | .plan .. | .read .. => False

theorem settling_perform {request : Request} (halters : request.Alters)
    (hbase : resource.store.baseDirectory.Denotes base)
    (hdenotes : (resource.store.resolve request.filename).Denotes (base ++ key))
    (present : key ≠ []) : Settling (request.perform resource) base (base ++ key) := by
  cases request with
  | create filename declaration => exact (settling_create hdenotes).map _
  | update filename declaration => exact (settling_update hdenotes).map _
  | apply filename declaration => exact (settling_apply hdenotes).map _
  | delete state => exact (settling_delete hbase hdenotes present).map _
  | plan filename declaration => exact halters.elim
  | read state => exact halters.elim

/-- Requests that alter different files succeed in both orders or in none. Each answers the same in
both, and the same files and directories are there afterwards. -/
theorem requests_commute {store : Store} {mode mode' : Declaration.Mode} {first second : Request}
    {disk between changed : Disk} {answer answer' : Answer}
    (hbase : store.baseDirectory.components = .root :: base.map .name)
    (hfirst : (Path.ofString first.filename).components = key.map .name)
    (hsecond : (Path.ofString second.filename).components = key'.map .name)
    (hapart : ¬ key <+: key') (hapart' : ¬ key' <+: key)
    (halters : first.Alters) (halters' : second.Alters)
    (hrun : run (first.perform ⟨store, mode⟩) disk = (.ok answer, between))
    (hrun' : run (second.perform ⟨store, mode'⟩) between = (.ok answer', changed)) :
    ∃ between' changed', run (second.perform ⟨store, mode'⟩) disk = (.ok answer', between') ∧
      run (first.perform ⟨store, mode⟩) between' = (.ok answer, changed') ∧
      ∀ names, changed'.tree.lookup names = changed.tree.lookup names := by
  have hdenotes := Path.denotes_of_components hbase
  have hpresent : key ≠ [] := by
    rintro rfl
    exact hapart List.nil_prefix
  have hpresent' : key' ≠ [] := by
    rintro rfl
    exact hapart' List.nil_prefix
  have hsettling : Settling (first.perform ⟨store, mode⟩) base (base ++ key) :=
    settling_perform halters hdenotes (Store.resolve_denotes hbase hfirst) hpresent
  have hsettling' : Settling (second.perform ⟨store, mode'⟩) base (base ++ key') :=
    settling_perform halters' hdenotes (Store.resolve_denotes hbase hsecond) hpresent'
  obtain ⟨between', changed', hnext, hlast, hlookup⟩ := hsettling.commute hsettling'
    (mt (List.prefix_append_right_inj base).1 hapart)
    (mt (List.prefix_append_right_inj base).1 hapart') hrun hrun'
  exact ⟨between', changed', hnext, hlast, congrFun hlookup⟩

/-- Deleting the file removes the directory that the other file needs. -/
theorem requests_commute_in_package :
    let delete : ExceptT ResourceError (StateM Disk) Answer :=
      (Request.delete ⟨"pkg/lib.go", ""⟩).perform sample
    let create : ExceptT ResourceError (StateM Disk) Answer :=
      (Request.create "pkg/main.go" (packageNamed "main")).perform sample
    (run delete withPackage).2.tree.lookup ["out", "gen", "pkg"] = none ∧
      ∃ between changed,
        run create withPackage = (.ok (.state ⟨"pkg/main.go", "package main\n"⟩), between) ∧
          run delete between = (.ok .deleted, changed) ∧
          ∀ names, changed.tree.lookup names =
            (run create (run delete withPackage).2).2.tree.lookup names := by
  intro delete create
  have hdelete : run delete withPackage = (.ok .deleted, (run delete withPackage).2) :=
    run_eq_of_result (by decide +kernel)
  have hcreate : run create (run delete withPackage).2 =
      (.ok (.state ⟨"pkg/main.go", "package main\n"⟩),
        (run create (run delete withPackage).2).2) :=
    run_eq_of_result (by decide +kernel)
  have hbase : sample.store.baseDirectory.components = .root :: ["out", "gen"].map .name := rfl
  have hlib : (Path.ofString "pkg/lib.go").components = ["pkg", "lib.go"].map .name := rfl
  have hmain : (Path.ofString "pkg/main.go").components = ["pkg", "main.go"].map .name := rfl
  exact ⟨by decide +kernel, requests_commute hbase hlib hmain (by decide) (by decide) trivial
    trivial hdelete hcreate⟩

end DeclaredSource.Resource
