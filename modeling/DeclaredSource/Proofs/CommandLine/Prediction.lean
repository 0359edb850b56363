import DeclaredSource.Proofs.CommandLine.Runs
import DeclaredSource.Proofs.Declaration.Strictness
import DeclaredSource.Proofs.Source.Layout

/-!
# Planning on the command line

A command line that plans with a detailed exit code tells by its code, its output and its messages
what the command line that applies the same declaration to the same file is going to do. Once that
has succeeded, planning again finds nothing to do, and rendering the declaration and reading the
file print the same text.
-/

namespace DeclaredSource.CommandLine

open Storage

/-- The same declaration, filename and global options, once to plan and once to apply. -/
structure Pair (planning applying : Invocation) : Prop where
  plans : planning.command = .plan
  detailed : planning.detailedExitCode = true
  applies : applying.command = .apply
  operand : applying.operand = planning.operand
  filename : applying.filename = planning.filename
  strict : applying.strict = planning.strict
  baseDirectory : applying.baseDirectory = planning.baseDirectory

/-- What planning and applying print of one change to the file with the given path, which comes to
have the given contents. -/
inductive Announces (filename : String) (path : Path) (disk : Disk) (contents : String) :
    (planned applied : String) → Prop
  | create (listing : String) (missing : disk.readFile path = .error .notFound)
    (listed : Text.lineDiff "" contents = some listing) :
    Announces filename path disk contents ("+ create " ++ filename ++ "\n" ++ listing)
      ("Created: " ++ path.text ++ "\n")
  | update (current diff : String) (found : disk.readFile path = .ok current.toUTF8)
    (differs : Text.lineDiff current contents = some diff) :
    Announces filename path disk contents ("~ update " ++ filename ++ "\n" ++ diff)
      (diff ++ "Updated: " ++ path.text ++ "\n")

/-- What planning has come to tells what applying comes to. -/
structure Predicts (environment : Option String) (planning : Invocation) (disk : Disk)
    (planned applied : Ending × Disk) : Prop where
  still : planned.2 = disk
  same : planned.1.exitCode = 0 →
    applied = (.finished ⟨0, "✓ " ++ planning.filename ++ " is up to date\n", ""⟩, disk)
  fails : planned.1.exitCode = 1 →
    applied.1.exitCode = 1 ∧ applied.1.errors = planned.1.errors ∧ applied.2 = disk
  changes : planned.1.exitCode = 2 → applied.1.exitCode = 0 →
    ∃ base contents, baseOf environment planning disk = .ok base ∧
      applied.2.readFile ((Store.mk base).resolve planning.filename) = .ok contents.toUTF8 ∧
      Announces planning.filename ((Store.mk base).resolve planning.filename) disk contents
        planned.1.output applied.1.output

/-- The file is in step with its declaration, for every command that looks at one of them. The
declaration is the same as long as the same bytes are read for it. -/
structure Converges (environment : Option String) (planArguments : List String)
    (planning : Invocation) (bytes : Except FileError ByteArray) (applied : Disk) (base : Path)
    (contents : String) : Prop where
  holds : applied.readFile ((Store.mk base).resolve planning.filename) = .ok contents.toUTF8
  plan : ∀ input, declarationBytes input planning.operand applied = bytes →
    (runOn input environment planArguments applied).1.exitCode = 0
  render : ∀ input arguments rendering,
    declarationBytes input planning.operand applied = bytes →
    invocation environment arguments = .ok rendering → rendering.command = .render →
    rendering.operand = planning.operand → rendering.strict = planning.strict →
    runOn input environment arguments applied = (.finished ⟨0, contents, ""⟩, applied)
  read : ∀ input arguments reading, invocation environment arguments = .ok reading →
    reading.command = .read → reading.json = false → reading.operand = planning.filename →
    reading.baseDirectory = planning.baseDirectory →
    runOn input environment arguments applied = (.finished ⟨0, contents, ""⟩, applied)

section Runs

variable {input : ByteArray} {environment : Option String}
  {planArguments applyArguments : List String} {planning applying : Invocation} {disk : Disk}
  {declaration : Json} {resource : Resource} {failure : Failure} {text : String}

theorem generate_ne_empty {mode : Declaration.Mode}
    (h : Generation.generate mode declaration = .ok text) : text ≠ "" := by
  obtain ⟨outline, -, htext⟩ := Declaration.generate_eq_ok.1 h
  obtain ⟨file, -, hprint⟩ := FirstFailure.bind_eq_ok.1 htext
  rw [FirstFailure.pure_eq_ok, Source.File.print_eq_layout] at hprint
  rw [← hprint, Source.File.layout]
  simp

/-- A change that is planned has a header of its own, and what is listed under it is the
difference. -/
theorem announces_change {existing : Option String} {path : Path} (hpresent : text ≠ "")
    (hother : existing ≠ some text)
    (hmissing : existing = none → disk.readFile path = .error .notFound)
    (hfound : ∀ current, existing = some current → disk.readFile path = .ok current.toUTF8) :
    Announces planning.filename path disk text
      (planText planning.filename (Resource.changeFrom existing text))
      (applyText path planning.filename (Resource.changeFrom existing text)) := by
  cases existing with
  | none => exact .create _ (hmissing rfl) (Text.lineDiff_empty hpresent)
  | some current =>
    have hne : current ≠ text := by simpa using hother
    obtain ⟨diff, hdiff⟩ := Text.lineDiff_of_ne hne
    rw [Resource.changeFrom, if_neg hne, hdiff, Option.getD_some]
    exact .update current diff (hfound current rfl) hdiff

theorem runOn_pair_fails (hplan : invocation environment planArguments = .ok planning)
    (happly : invocation environment applyArguments = .ok applying) (h : Pair planning applying)
    (hfails : ∀ next : Json → Resource → ExceptT Failure (StateM Disk) Report,
      Disk.run (prepare input environment planning next) disk = (.error failure, disk)) :
    runOn input environment planArguments disk = (.finished (reportOf (.error failure)), disk) ∧
      runOn input environment applyArguments disk =
        (.finished (reportOf (.error failure)), disk) := by
  constructor
  · apply runOn_accepted hplan
    rw [execute_plan h.plans]
    exact hfails _
  · apply runOn_accepted happly
    rw [execute_apply h.applies, prepare_congr h.operand h.strict h.baseDirectory]
    exact hfails _

theorem predicts_failure (environment : Option String) (planning : Invocation) (disk : Disk)
    (failure : Failure) :
    Predicts environment planning disk (.finished (reportOf (.error failure)), disk)
      (.finished (reportOf (.error failure)), disk) where
  still := rfl
  same := nofun
  fails _ := ⟨rfl, rfl, rfl⟩
  changes := nofun

theorem predicts_of_ready (hplan : invocation environment planArguments = .ok planning)
    (happly : invocation environment applyArguments = .ok applying) (h : Pair planning applying)
    (hready : Ready input environment planning disk declaration resource) :
    Predicts environment planning disk (runOn input environment planArguments disk)
      (runOn input environment applyArguments disk) := by
  have hready' : Ready input environment applying disk declaration resource :=
    hready.congr h.operand h.strict h.baseDirectory rfl rfl
  cases Resource.courses resource planning.filename declaration disk with
  | fails error plan apply =>
    rw [← h.filename] at apply
    rw [runOn_plan hplan h.plans hready plan, runOn_apply happly h.applies hready' apply]
    exact predicts_failure environment planning disk (.resource error)
  | same text generated holds plan apply =>
    rw [← h.filename] at apply
    rw [runOn_plan hplan h.plans hready plan, runOn_apply happly h.applies hready' apply]
    have hcode := planReport_noChange planning
    exact {
      still := rfl
      same := fun _ ↦ by rw [← h.filename]; rfl
      fails := fun hfails ↦ absurd (hcode.symm.trans hfails) (by decide)
      changes := fun hchanges ↦ absurd (hcode.symm.trans hchanges) (by decide) }
  | writes text existing result changed generated read other written plan apply =>
    rw [← h.filename] at apply
    rw [runOn_plan hplan h.plans hready plan, runOn_apply happly h.applies hready' apply]
    have hcode := planReport_change h.detailed (mt Resource.changeFrom_eq_noChange.1 other)
    refine {
      still := rfl
      same := fun hsame ↦ absurd (hcode.symm.trans hsame) (by decide)
      fails := fun hfails ↦ absurd (hcode.symm.trans hfails) (by decide)
      changes := fun _ happlied ↦ ?_ }
    cases result with
    | error error => exact absurd (show failureCode = 0 from happlied) (by decide)
    | ok path =>
      refine ⟨resource.store.baseDirectory, text, hready.chosen,
        Store.readFile_of_write written, ?_⟩
      have hannounces : Announces planning.filename (resource.store.resolve planning.filename) disk
          text (planText planning.filename (Resource.changeFrom existing text))
          (applyText (resource.store.resolve planning.filename) planning.filename
            (Resource.changeFrom existing text)) := by
        apply announces_change (generate_ne_empty generated) other
        · rintro rfl
          exact Store.readFile_of_readIfPresent_none read
        · rintro current rfl
          exact Store.readFile_of_readIfPresent_some read
      have houtput : (applyReport resource applying
          (⟨applying.filename, text⟩, Resource.changeFrom existing text)).output =
            applyText (resource.store.resolve planning.filename) planning.filename
              (Resource.changeFrom existing text) := by
        rw [← h.filename]
        rfl
      rw [← houtput] at hannounces
      exact hannounces

/-- Once applying has succeeded, every command that looks at the file or at its declaration finds
the same text. -/
theorem converges_of_ready (hplan : invocation environment planArguments = .ok planning)
    (happly : invocation environment applyArguments = .ok applying) (h : Pair planning applying)
    (hready : Ready input environment planning disk declaration resource)
    (hcode : (runOn input environment applyArguments disk).1.exitCode = 0) :
    ∃ contents, Converges environment planArguments planning
      (declarationBytes input planning.operand disk) (runOn input environment applyArguments disk).2
      resource.store.baseDirectory contents := by
  have hready' : Ready input environment applying disk declaration resource :=
    hready.congr h.operand h.strict h.baseDirectory rfl rfl
  cases hrun : Disk.run (resource.apply planning.filename declaration) disk with
  | mk result applied =>
    rw [← h.filename] at hrun
    rw [runOn_apply happly h.applies hready' hrun] at hcode ⊢
    rw [h.filename] at hrun
    cases result with
    | error error => exact absurd (show failureCode = 0 from hcode) (by decide)
    | ok answer =>
      obtain ⟨⟨filename, contents⟩, outcome⟩ := answer
      obtain ⟨hfilename, hinStep⟩ := Resource.apply_inStep hrun
      obtain rfl : filename = planning.filename := hfilename
      have hworking := Resource.apply_workingDirectory hrun
      refine ⟨contents, hinStep.holds, ?_, ?_, ?_⟩
      · intro later hbytes
        have hlater : Ready later environment planning applied declaration resource :=
          hready.congr rfl rfl rfl hbytes hworking
        have hagain := Resource.plan_eq_noChange.2 ⟨contents, hinStep.generated, hinStep.holds⟩
        rw [runOn_plan hplan h.plans hlater (Disk.run_eq_of_result hagain)]
        exact planReport_noChange planning
      · intro later arguments rendering hbytes hinvoked hcommand hoperand hstrict
        have hloaded : declared rendering.operand
            (declarationBytes later rendering.operand applied) = .ok declaration := by
          rw [hoperand, hbytes, hready.loaded]
        have hmode : mode rendering = resource.mode := by
          rw [hready.mode, mode, mode, hstrict]
        exact runOn_render hinvoked hcommand hloaded (hmode ▸ hinStep.generated)
      · intro later arguments reading hinvoked hcommand hraw hoperand hbase
        have hchosen : baseOf environment reading applied = .ok resource.store.baseDirectory := by
          rw [baseOf_congr hbase hworking, hready.chosen]
        exact runOn_read hinvoked hcommand hraw hchosen (hoperand ▸ hinStep.view)

/-- Planning with a detailed exit code predicts applying, on every disk and whatever is on standard
input; and where applying succeeds, planning, rendering and reading agree with it afterwards. -/
theorem plan_predicts_apply (hplan : invocation environment planArguments = .ok planning)
    (happly : invocation environment applyArguments = .ok applying) (h : Pair planning applying)
    (input : ByteArray) (disk : Disk) :
    Predicts environment planning disk (runOn input environment planArguments disk)
        (runOn input environment applyArguments disk) ∧
      ((runOn input environment applyArguments disk).1.exitCode = 0 →
        ∃ base contents, baseOf environment planning disk = .ok base ∧
          Converges environment planArguments planning
            (declarationBytes input planning.operand disk)
            (runOn input environment applyArguments disk).2 base contents) := by
  rcases fails_or_ready input environment planning disk with
    ⟨failure, hfails⟩ | ⟨declaration, resource, hready⟩
  · obtain ⟨hplanned, happlied⟩ := runOn_pair_fails hplan happly h hfails
    rw [hplanned, happlied]
    refine ⟨predicts_failure environment planning disk failure, fun hcode ↦ ?_⟩
    exact absurd (show failureCode = 0 from hcode) (by decide)
  · refine ⟨predicts_of_ready hplan happly h hready, fun hcode ↦ ?_⟩
    obtain ⟨contents, hconverges⟩ := converges_of_ready hplan happly h hready hcode
    exact ⟨resource.store.baseDirectory, contents, hready.chosen, hconverges⟩

end Runs

def planLine : List String := ["plan", "-", "--filename", "pkg/lib.go", "--detailed-exitcode"]

def applyLine : List String := ["apply", "-", "--filename", "pkg/lib.go"]

def libraryInput : ByteArray := "\x7b\"packageName\": \"lib\"\x7d".toUTF8

/-- A new file, declared on standard input, below a base directory from the environment. -/
theorem plan_predicts_apply_library :
    (runOn libraryInput (some "/out/gen") planLine Disk.bare).1 =
        .finished ⟨2, "+ create pkg/lib.go\n+   1 | package lib\n", ""⟩ ∧
      (runOn libraryInput (some "/out/gen") applyLine Disk.bare).1 =
        .finished ⟨0, "Created: /out/gen/pkg/lib.go\n", ""⟩ ∧
      ∃ planning, invocation (some "/out/gen") planLine = .ok planning ∧
        Predicts (some "/out/gen") planning Disk.bare
          (runOn libraryInput (some "/out/gen") planLine Disk.bare)
          (runOn libraryInput (some "/out/gen") applyLine Disk.bare) ∧
        ∃ base contents, baseOf (some "/out/gen") planning Disk.bare = .ok base ∧
          Converges (some "/out/gen") planLine planning
            (declarationBytes libraryInput planning.operand Disk.bare)
            (runOn libraryInput (some "/out/gen") applyLine Disk.bare).2 base contents := by
  have hplan : invocation (some "/out/gen") planLine =
      .ok ⟨.plan, "-", "pkg/lib.go", true, false, false, some "/out/gen"⟩ := by decide +kernel
  have happly : invocation (some "/out/gen") applyLine =
      .ok ⟨.apply, "-", "pkg/lib.go", false, false, false, some "/out/gen"⟩ := by decide +kernel
  have hplanned : (runOn libraryInput (some "/out/gen") planLine Disk.bare).1 =
      .finished ⟨2, "+ create pkg/lib.go\n+   1 | package lib\n", ""⟩ := by decide +kernel
  have happlied : (runOn libraryInput (some "/out/gen") applyLine Disk.bare).1 =
      .finished ⟨0, "Created: /out/gen/pkg/lib.go\n", ""⟩ := by decide +kernel
  obtain ⟨hpredicts, hconverges⟩ := plan_predicts_apply hplan happly
    ⟨rfl, rfl, rfl, rfl, rfl, rfl, rfl⟩ libraryInput Disk.bare
  exact ⟨hplanned, happlied, _, hplan, hpredicts, hconverges (congrArg Ending.exitCode happlied)⟩

end DeclaredSource.CommandLine
