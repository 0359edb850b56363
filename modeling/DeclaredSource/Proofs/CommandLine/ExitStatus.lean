import DeclaredSource.Proofs.CommandLine.Runs

/-!
# Exit status

Of the commands that are carried out, only planning with a detailed exit code that finds something
to do ends with the pending code, and all that fail end with the failure code. A command line that
is refused ends with the pending code as well, so for whoever branches on the code a mistake in the
arguments looks like something to do.
-/

namespace DeclaredSource.CommandLine

open Storage

variable {α : Type} {input : ByteArray} {environment : Option String} {arguments : List String}
  {given : Invocation} {disk changed : Disk} {report : Report}

/-- Whenever the command succeeds, it has nothing to tell by its code. -/
def Prints (command : ExceptT Failure (StateM Disk) Report) : Prop :=
  ∀ disk report changed, Disk.run command disk = (.ok report, changed) →
    report.exitCode = successCode

theorem prints_printed (output : String) : Prints (pure (printed output)) := by
  intro disk report changed hrun
  cases hrun
  rfl

theorem Prints.bind {program : ExceptT Failure (StateM Disk) α}
    {next : α → ExceptT Failure (StateM Disk) Report} (h : ∀ value, Prints (next value)) :
    Prints (program >>= next) := by
  intro disk report changed hrun
  obtain ⟨value, between, -, hnext⟩ := Disk.run_bind_eq_ok.1 hrun
  exact h value between report changed hnext

theorem prints_render (input : ByteArray) (given : Invocation) :
    Prints (render (pure input) given) := by
  unfold render
  apply Prints.bind
  intro declaration
  cases Generation.generate (mode given) declaration with
  | ok text => exact prints_printed text
  | error error => exact nofun

theorem prints_apply (input : ByteArray) (environment : Option String) (given : Invocation) :
    Prints (apply (pure input) environment given) := by
  unfold apply
  apply Prints.bind
  intro declaration
  apply Prints.bind
  intro resource
  apply Prints.bind
  intro applied
  exact prints_printed _

theorem prints_read (environment : Option String) (given : Invocation) :
    Prints (read environment given) := by
  unfold read
  apply Prints.bind
  intro store
  apply Prints.bind
  intro state
  exact prints_printed _

theorem prints_destroy (environment : Option String) (given : Invocation) :
    Prints (destroy environment given) := by
  unfold destroy
  apply Prints.bind
  intro resource
  apply Prints.bind
  intro state
  apply Prints.bind
  intro _
  exact prints_printed _

/-- Planning was asked for a detailed exit code and finds something to do. -/
structure FindsChange (input : ByteArray) (environment : Option String) (given : Invocation)
    (disk : Disk) : Prop where
  command : given.command = .plan
  detailed : given.detailedExitCode = true
  change : ∃ declaration resource outcome,
    Ready input environment given disk declaration resource ∧
      (Disk.run (resource.plan given.filename declaration) disk).1 = .ok outcome ∧
      outcome ≠ .noChange

/-- What is reported by planning is what was planned. -/
theorem execute_plan_eq_ok (hcommand : given.command = .plan)
    (h : Disk.run (execute (pure input) environment given) disk = (.ok report, changed)) :
    ∃ declaration resource outcome, Ready input environment given disk declaration resource ∧
      (Disk.run (resource.plan given.filename declaration) disk).1 = .ok outcome ∧
      report = planReport given outcome := by
  rw [execute_plan hcommand] at h
  rcases fails_or_ready input environment given disk with
    ⟨failure, hfails⟩ | ⟨declaration, resource, hready⟩
  · rw [hfails] at h
    cases h
  · rw [hready.run_prepare] at h
    obtain ⟨outcome, between, hmanaged, hpure⟩ := Disk.run_bind_eq_ok.1 h
    cases hpure
    refine ⟨declaration, resource, outcome, hready, ?_, rfl⟩
    cases hplan : Disk.run (resource.plan given.filename declaration) disk with
    | mk result after =>
      rw [run_managed hplan] at hmanaged
      cases result with
      | error error => cases hmanaged
      | ok planned =>
        cases hmanaged
        rfl

theorem findsChange_iff {declaration : Json} {resource : Resource} {outcome : Outcome}
    (hcommand : given.command = .plan)
    (hready : Ready input environment given disk declaration resource)
    (hplan : (Disk.run (resource.plan given.filename declaration) disk).1 = .ok outcome) :
    FindsChange input environment given disk ↔
      given.detailedExitCode = true ∧ outcome ≠ .noChange := by
  constructor
  · rintro ⟨-, hdetailed, declaration', resource', outcome', hready', hplan', hchange⟩
    obtain ⟨rfl, rfl⟩ := hready.unique hready'
    obtain rfl := Except.ok.inj (hplan.symm.trans hplan')
    exact ⟨hdetailed, hchange⟩
  · rintro ⟨hdetailed, hchange⟩
    exact ⟨hcommand, hdetailed, declaration, resource, outcome, hready, hplan, hchange⟩

/-- A command that succeeds ends with the pending code exactly when it finds something to do. -/
theorem execute_exitCode
    (h : Disk.run (execute (pure input) environment given) disk = (.ok report, changed)) :
    report.exitCode = pendingCode ∧ FindsChange input environment given disk ∨
      report.exitCode = successCode ∧ ¬ FindsChange input environment given disk := by
  have hprinted (hother : given.command ≠ .plan)
      (hprints : Prints (execute (pure input) environment given)) :
      report.exitCode = successCode ∧ ¬ FindsChange input environment given disk :=
    ⟨hprints disk report changed h, fun hfinds ↦ hother hfinds.command⟩
  unfold execute at hprinted
  cases hcommand : given.command with
  | render =>
    rw [hcommand] at hprinted
    exact .inr (hprinted (by decide) (prints_render input given))
  | apply =>
    rw [hcommand] at hprinted
    exact .inr (hprinted (by decide) (prints_apply input environment given))
  | read =>
    rw [hcommand] at hprinted
    exact .inr (hprinted (by decide) (prints_read environment given))
  | destroy =>
    rw [hcommand] at hprinted
    exact .inr (hprinted (by decide) (prints_destroy environment given))
  | plan =>
    obtain ⟨declaration, resource, outcome, hready, hplan, rfl⟩ := execute_plan_eq_ok hcommand h
    rw [findsChange_iff hcommand hready hplan]
    by_cases hfinds : given.detailedExitCode = true ∧ outcome ≠ .noChange
    · exact .inl ⟨planReport_change hfinds.1 hfinds.2, hfinds⟩
    · refine .inr ⟨?_, hfinds⟩
      rw [planReport, if_neg (by simpa using hfinds)]

/-- A command that fails has found nothing to do. -/
theorem not_findsChange_of_fails {failure : Failure}
    (h : Disk.run (execute (pure input) environment given) disk = (.error failure, changed)) :
    ¬ FindsChange input environment given disk := by
  rintro ⟨hcommand, -, declaration, resource, outcome, hready, hplan, -⟩
  have hmanaged := run_managed (Disk.run_eq_of_result hplan)
  rw [execute_plan hcommand, hready.run_prepare, Disk.run_bind_pure hmanaged] at h
  cases h

/-- A command line ends with the pending code when it is refused for a mistake or when it plans for
something to do and was asked to tell, with the failure code when it is carried out and fails, and
with zero otherwise. -/
theorem exit_status (input : ByteArray) (environment : Option String) (arguments : List String)
    (disk : Disk) :
    ((runOn input environment arguments disk).1.exitCode = pendingCode ↔
        (∃ usage, invocation environment arguments = .error usage ∧ usage ≠ .displayHelp ∧
          usage ≠ .displayVersion) ∨
        ∃ given, invocation environment arguments = .ok given ∧
          FindsChange input environment given disk) ∧
      ((runOn input environment arguments disk).1.exitCode = failureCode ↔
        ∃ given failure, invocation environment arguments = .ok given ∧
          (Disk.run (execute (pure input) environment given) disk).1 = .error failure) ∧
      (runOn input environment arguments disk).1.exitCode ≤ pendingCode := by
  cases hinvoked : invocation environment arguments with
  | error usage =>
    rw [runOn_refused hinvoked]
    cases usage <;> simp [Ending.exitCode, Usage.exitCode, pendingCode, failureCode]
  | ok given =>
    cases hexecute : Disk.run (execute (pure input) environment given) disk with
    | mk result changed =>
      rw [runOn_accepted hinvoked hexecute]
      have hunrefused : ¬ ∃ usage, (.ok given : Except Usage Invocation) = .error usage ∧
          usage ≠ .displayHelp ∧ usage ≠ .displayVersion := by simp
      rw [or_iff_right hunrefused]
      simp only [Except.ok.injEq, exists_and_left, exists_eq_left', hexecute]
      cases result with
      | error failure =>
        have hnothing := not_findsChange_of_fails hexecute
        simp [Ending.exitCode, reportOf, hnothing, pendingCode, failureCode]
      | ok report =>
        rcases execute_exitCode hexecute with ⟨hcode, hfinds⟩ | ⟨hcode, hfinds⟩
        · simp [Ending.exitCode, reportOf, hcode, hfinds, pendingCode, failureCode]
        · simp [Ending.exitCode, reportOf, hcode, hfinds, pendingCode, failureCode, successCode]

/-- There is no command of that name, and nothing is planned, let alone found to be pending. -/
theorem mistake_looks_pending :
    runOn ByteArray.empty none ["bogus"] Disk.bare = (.refused .invalidSubcommand, Disk.bare) ∧
      (runOn ByteArray.empty none ["bogus"] Disk.bare).1.exitCode = pendingCode ∧
      ¬ ∃ given, invocation none ["bogus"] = .ok given ∧
        FindsChange ByteArray.empty none given Disk.bare := by
  have hrefused : invocation none ["bogus"] = .error .invalidSubcommand := by decide +kernel
  have hrun := runOn_refused hrefused ByteArray.empty Disk.bare
  refine ⟨hrun, by rw [hrun]; rfl, ?_⟩
  rintro ⟨given, hinvoked, -⟩
  rw [hrefused] at hinvoked
  cases hinvoked

end DeclaredSource.CommandLine
