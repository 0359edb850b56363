import Mathlib.Data.List.TakeDrop
import DeclaredSource.Proofs.CommandLine.Runs
import DeclaredSource.Proofs.FirstFailure

/-!
# Destroying and deleting

Destroying a file is deleting it through the resource, but the file is read first, as everything is
that a resource manages. So a file that holds no text is left alone, which deleting by itself would
remove. Where there is text, the two do the same to the disk, whether they succeed or not.
-/

namespace DeclaredSource.CommandLine

open Storage FirstFailure

variable {input : ByteArray} {environment : Option String} {arguments : List String}
  {given : Invocation} {disk changed : Disk} {resource : Resource}

/-- What destroying reports. -/
def destroyReport (given : Invocation) : Report :=
  printed ("Destroyed: " ++ given.operand ++ "\n")

theorem execute_destroy (h : given.command = .destroy) :
    execute (pure input) environment given = (do
      let resource ← CommandLine.resource environment given
      let state ← managed (Resource.view resource.store given.operand)
      managed (resource.delete state)
      return destroyReport given : ExceptT Failure (StateM Disk) Report) := by
  unfold execute
  rw [h]
  rfl

/-- Destroying, once the base directory is chosen. -/
theorem run_destroy (h : given.command = .destroy) {store : Store}
    (hbase : baseOf environment given disk = .ok store.baseDirectory) :
    Disk.run (execute (pure input) environment given) disk =
      Disk.run (do
        let state ← managed (Resource.view store given.operand)
        managed (Resource.delete ⟨store, mode given⟩ state)
        return destroyReport given : ExceptT Failure (StateM Disk) Report) disk := by
  have hresource := run_resource environment given disk
  rw [hbase] at hresource
  rw [execute_destroy h]
  apply (Disk.run_bind_ok hresource).trans
  rfl

theorem runOn_destroy_text (invoked : invocation environment arguments = .ok given)
    (hcommand : given.command = .destroy)
    (hbase : baseOf environment given disk = .ok resource.store.baseDirectory) {text : String}
    (hread : disk.readFile (resource.store.resolve given.operand) = .ok text.toUTF8)
    {contents : String} {result : Except ResourceError Unit}
    (hdelete : Disk.run (resource.delete ⟨given.operand, contents⟩) disk = (result, changed)) :
    runOn input environment arguments disk =
      (.finished (reportOf ((result.mapError .resource).map fun _ ↦ destroyReport given)),
        changed) := by
  have hview : Disk.run (Resource.view resource.store given.operand) disk =
      (.ok ⟨given.operand, text⟩, disk) :=
    (Disk.run_bind_ok (Resource.run_stored (Store.read_ok hread))).trans (Disk.run_pure _)
  -- Neither the mode nor what is known of the contents makes a difference to deleting.
  have hdelete' : Disk.run (Resource.delete ⟨resource.store, mode given⟩ ⟨given.operand, text⟩)
      disk = (result, changed) := hdelete
  apply runOn_accepted invoked
  rw [run_destroy hcommand hbase]
  apply (Disk.run_bind_ok (run_managed hview)).trans
  exact Disk.run_bind_pure (run_managed hdelete') fun _ ↦ destroyReport given

theorem failureCode_ne_successCode : failureCode ≠ successCode := by
  decide

theorem exists_read_error {store : Store} {filename : String}
    (h : ∀ text : String, disk.readFile (store.resolve filename) ≠ .ok text.toUTF8) :
    ∃ error, Disk.run (store.read filename) disk = (.error error, disk) := by
  cases hread : disk.readFile (store.resolve filename) with
  | error cause => exact ⟨_, Store.read_error hread⟩
  | ok contents =>
    cases htext : String.fromUTF8? contents with
    | none => exact ⟨_, Store.read_notText hread htext⟩
    | some text => exact absurd (Store.toUTF8_of_fromUTF8? htext ▸ hread) (h text)

theorem runOn_destroy_other (invoked : invocation environment arguments = .ok given)
    (hcommand : given.command = .destroy)
    (hbase : baseOf environment given disk = .ok resource.store.baseDirectory)
    (hread : ∀ text : String,
      disk.readFile (resource.store.resolve given.operand) ≠ .ok text.toUTF8) :
    ∃ failure, runOn input environment arguments disk =
      (.finished (reportOf (.error failure)), disk) := by
  obtain ⟨error, herror⟩ := exists_read_error hread
  have hview : Disk.run (Resource.view resource.store given.operand) disk =
      (.error (.storage error), disk) :=
    Disk.run_bind_error (Resource.run_stored herror)
  refine ⟨.resource (.storage error), runOn_accepted invoked ?_⟩
  rw [run_destroy hcommand hbase]
  exact Disk.run_bind_error (run_managed hview)

/-- Destroying succeeds exactly where deleting does and there is text to be read, and then it leaves
the same disk. -/
theorem destroys_text_that_delete_would (invoked : invocation environment arguments = .ok given)
    (hcommand : given.command = .destroy)
    (hbase : baseOf environment given disk = .ok resource.store.baseDirectory)
    (input : ByteArray) (contents : String) :
    ((runOn input environment arguments disk).1.exitCode = successCode ↔
        (Disk.run (resource.delete ⟨given.operand, contents⟩) disk).1 = .ok () ∧
          ∃ text : String,
            disk.readFile (resource.store.resolve given.operand) = .ok text.toUTF8) ∧
      ((runOn input environment arguments disk).1.exitCode = successCode →
        (runOn input environment arguments disk).2 =
          (Disk.run (resource.delete ⟨given.operand, contents⟩) disk).2) := by
  by_cases hread : ∃ text : String,
      disk.readFile (resource.store.resolve given.operand) = .ok text.toUTF8
  · obtain ⟨text, htext⟩ := hread
    cases hdelete : Disk.run (resource.delete ⟨given.operand, contents⟩) disk with
    | mk result changed =>
      rw [runOn_destroy_text invoked hcommand hbase htext hdelete]
      refine ⟨?_, fun _ ↦ rfl⟩
      rw [and_iff_left ⟨text, htext⟩]
      cases result with
      | ok => exact ⟨fun _ ↦ rfl, fun _ ↦ rfl⟩
      | error error => exact ⟨fun h ↦ absurd h failureCode_ne_successCode, fun h ↦ by cases h⟩
  · obtain ⟨failure, hrun⟩ := runOn_destroy_other invoked hcommand hbase (not_exists.1 hread)
    have hcode : (runOn input environment arguments disk).1.exitCode ≠ successCode := by
      rw [hrun]
      exact failureCode_ne_successCode
    exact ⟨⟨fun h ↦ absurd h hcode, fun h ↦ absurd h.2 hread⟩, fun h ↦ absurd h hcode⟩

theorem shape_attached (base : String) :
    shape ("--base-dir=" ++ base) = .long "base-dir" (some base) := by
  have hlist : ("--base-dir=" ++ base).toList =
      '-' :: '-' :: ("base-dir".toList ++ '=' :: base.toList) := by
    simp
  rw [shape, hlist]
  simp [List.span_eq_takeWhile_dropWhile]

theorem ofSpelling?_attached (base : String) :
    CommandName.ofSpelling? ("--base-dir=" ++ base) = none := by
  rw [CommandName.ofSpelling?, List.find?_eq_none]
  intro command _ hspelling
  have hplain : shape command.spelling = .plain := by cases command <;> decide +kernel
  have hshape := shape_attached base
  rw [← of_decide_eq_true hspelling, hplain] at hshape
  cases hshape

/-- Destroying a file below a base directory, however the two are spelled. -/
def destroyLine (base filename : String) : List String :=
  ["--base-dir=" ++ base, "destroy", "--", filename]

/-- Every base directory but the empty one, and every filename, can be asked for. -/
theorem invocation_destroyLine (henvironment : environment ≠ some "") {base : String}
    (hbase : base ≠ "") (filename : String) :
    invocation environment (destroyLine base filename) =
      .ok ⟨.destroy, filename, "", false, false, false, some base⟩ := by
  have hrecord : Progress.record .top .nothing .baseDirectory base =
      .ok (Given.nothing.set .baseDirectory base) := by
    simp [Progress.record, hbase, Given.value?, Given.nothing]
  have hstep : step .top .initial ("--base-dir=" ++ base) =
      .ok ⟨Given.nothing.set .baseDirectory base, .nothing⟩ := by
    have hlookup : Level.top.options.lookup "base-dir" = some .baseDirectory := by decide +kernel
    have hsettle : Progress.settle .top .initial = .ok .nothing := rfl
    rw [step, shape_attached]
    simp only [Progress.long, hlookup, hsettle, ok_bind, hrecord]
    rfl
  have hname : CommandName.ofSpelling? "destroy" = some .destroy := by decide +kernel
  have htop : topLevel .initial (destroyLine base filename) =
      .ok (⟨Given.nothing.set .baseDirectory base, .nothing⟩,
        some (.destroy, ["--", filename])) := by
    rw [destroyLine, topLevel, ofSpelling?_attached, shape_attached]
    dsimp only [Progress.initial]
    rw [← Progress.initial, hstep, ok_bind, topLevel, hname]
  have henv (given : Given) : fromEnvironment given environment = .ok () := by
    simp [fromEnvironment, henvironment]
  have hinner : commandGiven .destroy environment ["--", filename] =
      .ok (Given.nothing.set .operand filename) := by
    have hdashes : shape "--" = .dashes := by decide +kernel
    have hlevel : commandLevel (Level.ofCommand .destroy) .initial ["--", filename] =
        .ok ⟨.nothing, .holding .operand filename⟩ := by
      rw [commandLevel, if_pos hdashes]
      rfl
    have hsettle : Progress.settle (Level.ofCommand .destroy)
        ⟨.nothing, .holding .operand filename⟩ = .ok (Given.nothing.set .operand filename) := by
      simp [Progress.settle, Progress.record, Given.value?, Given.nothing, Level.mayBeEmpty,
        Level.ofCommand, Level.command]
    simp only [commandGiven, hlevel, ok_bind, hsettle, henv]
    rfl
  have houter : Progress.settle .top ⟨Given.nothing.set .baseDirectory base, .nothing⟩ =
      .ok (Given.nothing.set .baseDirectory base) := rfl
  simp only [invocation, htop, ok_bind, hinner, houter, henv]
  rfl

/-- A file of text alone in a directory: destroying it and deleting it leave the same disk, on which
the directory is gone and the base directory is not. -/
theorem destroys_text_in_package :
    let disk := Resource.withPackage
    let destroyed := runOn ByteArray.empty none (destroyLine "/out/gen" "pkg/lib.go") disk
    let deleted := Disk.run (Resource.sample.delete ⟨"pkg/lib.go", "package lib\n"⟩) disk
    (destroyed.1.exitCode = successCode ↔ deleted.1 = .ok () ∧
        ∃ text : String,
          disk.readFile (Resource.sample.store.resolve "pkg/lib.go") = .ok text.toUTF8) ∧
      deleted.1 = .ok () ∧ destroyed.2 = deleted.2 ∧
      disk.tree.lookup ["out", "gen", "pkg"] = some .directory ∧
      destroyed.2.tree.lookup ["out", "gen", "pkg"] = none ∧
      destroyed.2.tree.lookup ["out", "gen"] = some .directory := by
  intro disk destroyed deleted
  have hinvoked : invocation none (destroyLine "/out/gen" "pkg/lib.go") = .ok _ :=
    invocation_destroyLine (by decide) (by decide) "pkg/lib.go"
  have hboth := destroys_text_that_delete_would hinvoked rfl
    (rfl : baseOf none _ disk = .ok Resource.sample.store.baseDirectory) ByteArray.empty
    "package lib\n"
  have hdeleted : deleted.1 = .ok () := by decide +kernel
  have hread : disk.readFile (Resource.sample.store.resolve "pkg/lib.go") =
      .ok "package lib\n".toUTF8 := by decide +kernel
  have hsame : destroyed.2 = deleted.2 := hboth.2 (hboth.1.2 ⟨hdeleted, _, hread⟩)
  refine ⟨hboth.1, hdeleted, hsame, by decide +kernel, ?_, ?_⟩
  · rw [hsame]
    decide +kernel
  · rw [hsame]
    decide +kernel

/-- A disk with one file, directly below the root. -/
def diskWith (contents : ByteArray) : Disk :=
  ((Files.replaceFile (Path.ofString "/") (Path.ofString "/lib.go") contents : StateM Disk _)
    Disk.bare).2

/-- A file that holds one byte, which is no text: deleting removes it, and destroying fails. -/
theorem destroy_spares_bytes :
    let library : Resource := ⟨⟨Path.ofString "/"⟩, .lenient⟩
    let disk := diskWith ⟨#[255]⟩
    (Disk.run (library.delete ⟨"lib.go", ""⟩) disk).1 = .ok () ∧
      (runOn ByteArray.empty none (destroyLine "/" "lib.go") disk).1.exitCode = failureCode ∧
      (runOn ByteArray.empty none (destroyLine "/" "lib.go") disk).2.tree.lookup ["lib.go"] =
        some (.file ⟨#[255]⟩) := by
  decide +kernel

end DeclaredSource.CommandLine
