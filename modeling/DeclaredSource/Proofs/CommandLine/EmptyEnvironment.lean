import DeclaredSource.Proofs.CommandLine.Runs
import DeclaredSource.Proofs.FirstFailure

/-!
# An empty base directory in the environment

To the settings an empty choice of the base directory is none. The command line does not leave it to
them: a level that was not given a base directory takes the one from the environment, and refuses it
when it is empty, for every command, whether the command has a use for a base directory or not. So
the empty variable counts as unset only where both levels are given a base directory, and where the
command line is refused anyway.
-/

namespace DeclaredSource.CommandLine

open Storage FirstFailure

variable {input : ByteArray} {arguments rest : List String} {command : CommandName}
  {given inner outer : Given} {usage usage' : Usage}

/-- Anything but a request for help or for the version. -/
def Usage.IsMistake (usage : Usage) : Prop :=
  usage ≠ .displayHelp ∧ usage ≠ .displayVersion

/-- To whoever looks at the exit code and the output, the two are the same. -/
def Usage.LooksLike (usage usage' : Usage) : Prop :=
  usage' = usage ∨ usage.IsMistake ∧ usage'.IsMistake

theorem Usage.IsMistake.ending (h : usage.IsMistake) :
    (Ending.refused usage).exitCode = 2 ∧ (Ending.refused usage).output = "" := by
  cases usage with
  | displayHelp => exact absurd rfl h.1
  | displayVersion => exact absurd rfl h.2
  | _ => exact ⟨rfl, rfl⟩

theorem Usage.LooksLike.ending (h : usage.LooksLike usage') :
    (Ending.refused usage').exitCode = (Ending.refused usage).exitCode ∧
      (Ending.refused usage').output = (Ending.refused usage).output := by
  rcases h with rfl | ⟨h, h'⟩
  · exact ⟨rfl, rfl⟩
  · exact ⟨h'.ending.1.trans h.ending.1.symm, h'.ending.2.trans h.ending.2.symm⟩

theorem isMistake_of_record {level : Level} {slot : Slot} {value : String}
    (h : Progress.record level given slot value = .error usage) : usage.IsMistake := by
  unfold Progress.record at h
  split at h
  · cases h
    exact ⟨by decide, by decide⟩
  · split at h <;> cases h
    exact ⟨by decide, by decide⟩

theorem isMistake_of_settle {level : Level} {progress : Progress}
    (h : progress.settle level = .error usage) : usage.IsMistake := by
  unfold Progress.settle at h
  split at h
  · cases h
  · cases h
    exact ⟨by decide, by decide⟩
  · exact isMistake_of_record h

/-- What the command's level is given, before the environment is looked at. -/
def levelGiven (command : CommandName) (rest : List String) : Except Usage Given := do
  Progress.settle (Level.ofCommand command)
    (← commandLevel (Level.ofCommand command) .initial rest)

/-- Nothing that the command requires is missing. -/
def checkRequired (command : CommandName) (given : Given) : Except Usage Given :=
  if (Level.requires command).all fun slot ↦ (given.value? slot).isSome then .ok given
  else .error .missingRequired

theorem commandGiven_eq (command : CommandName) (environment : Option String)
    (rest : List String) : commandGiven command environment rest = (do
      let given ← levelGiven command rest
      fromEnvironment given environment
      checkRequired command given) := by
  simp only [commandGiven, levelGiven, bind_assoc]
  rfl

theorem fromEnvironment_none (given : Given) : fromEnvironment given none = .ok () := by
  simp [fromEnvironment]

theorem fromEnvironment_empty (given : Given) : fromEnvironment given (some "") =
    if given.baseDirectory.isSome then .ok () else .error .invalidValue := by
  cases hbase : given.baseDirectory <;> simp [fromEnvironment, hbase]

theorem commandGiven_of_ok (h : commandGiven command none rest = .ok inner) :
    commandGiven command (some "") rest =
      if inner.baseDirectory.isSome then .ok inner else .error .invalidValue := by
  rw [commandGiven_eq] at h ⊢
  obtain ⟨given, hgiven, h⟩ := bind_eq_ok.1 h
  rw [fromEnvironment_none, ok_bind] at h
  have hsame : given = inner := by
    unfold checkRequired at h
    split at h <;> cases h
    rfl
  subst hsame
  rw [hgiven, ok_bind, fromEnvironment_empty]
  split
  · rw [ok_bind, h]
  · rfl

theorem commandGiven_of_error (h : commandGiven command none rest = .error usage) :
    ∃ usage', commandGiven command (some "") rest = .error usage' ∧ usage.LooksLike usage' := by
  rw [commandGiven_eq] at h ⊢
  rcases bind_eq_error.1 h with hgiven | ⟨given, hgiven, h⟩
  · rw [hgiven]
    exact ⟨usage, rfl, .inl rfl⟩
  · rw [fromEnvironment_none, ok_bind] at h
    rw [hgiven, ok_bind, fromEnvironment_empty]
    split
    · rw [ok_bind, h]
      exact ⟨usage, rfl, .inl rfl⟩
    · unfold checkRequired at h
      split at h <;> cases h
      exact ⟨_, rfl, .inr ⟨⟨by decide, by decide⟩, by decide, by decide⟩⟩

/-- What the two levels of an accepted command line are given. -/
def Levels (arguments : List String) (command : CommandName) (outer inner : Given) : Prop :=
  ∃ progress rest, topLevel .initial arguments = .ok (progress, some (command, rest)) ∧
    progress.settle .top = .ok outer ∧ commandGiven command none rest = .ok inner

/-- The invocation that the two levels come to. -/
def invoked (command : CommandName) (outer inner : Given) (environment : Option String) :
    Invocation :=
  ⟨command, inner.operand.getD "", inner.filename.getD "", inner.detailedExitCode, inner.json,
    outer.strict || inner.strict, (inner.baseDirectory.or outer.baseDirectory).or environment⟩

theorem exists_levels {accepted : Invocation} (h : invocation none arguments = .ok accepted) :
    ∃ command outer inner, Levels arguments command outer inner ∧
      accepted = invoked command outer inner none := by
  unfold invocation at h
  obtain ⟨⟨progress, found⟩, htop, h⟩ := bind_eq_ok.1 h
  cases found with
  | none =>
    obtain ⟨given, -, h⟩ := bind_eq_ok.1 h
    rw [fromEnvironment_none, ok_bind] at h
    split at h <;> cases h
  | some found =>
    obtain ⟨command, rest⟩ := found
    obtain ⟨inner, hinner, h⟩ := bind_eq_ok.1 h
    obtain ⟨outer, houter, h⟩ := bind_eq_ok.1 h
    rw [fromEnvironment_none, ok_bind] at h
    cases h
    exact ⟨command, outer, inner, ⟨progress, rest, htop, houter, hinner⟩, rfl⟩

theorem Levels.invocation_empty (h : Levels arguments command outer inner) :
    invocation (some "") arguments =
      if inner.baseDirectory.isSome && outer.baseDirectory.isSome then
        .ok (invoked command outer inner none)
      else .error .invalidValue := by
  obtain ⟨progress, rest, htop, houter, hinner⟩ := h
  unfold invocation
  rw [htop, ok_bind]
  dsimp only
  rw [commandGiven_of_ok hinner]
  cases hbase : inner.baseDirectory with
  | none => rfl
  | some base =>
    rw [Option.isSome_some, if_pos rfl, ok_bind, houter, ok_bind, fromEnvironment_empty]
    cases outer.baseDirectory with
    | none => rfl
    | some base' =>
      simp only [Option.isSome_some, Bool.and_self, if_pos, ok_bind]
      simp [invoked, hbase]
      rfl

theorem invocation_empty_of_error (h : invocation none arguments = .error usage) :
    ∃ usage', invocation (some "") arguments = .error usage' ∧ usage.LooksLike usage' := by
  have hinvalid : Usage.invalidValue.IsMistake := ⟨by decide, by decide⟩
  unfold invocation at h ⊢
  rcases bind_eq_error.1 h with htop | ⟨⟨progress, found⟩, htop, h⟩
  · rw [htop]
    exact ⟨usage, rfl, .inl rfl⟩
  rw [htop, ok_bind]
  cases found with
  | none =>
    dsimp only at h ⊢
    rcases bind_eq_error.1 h with hgiven | ⟨given, hgiven, h⟩
    · rw [hgiven]
      exact ⟨usage, rfl, .inl rfl⟩
    have husage : usage.IsMistake := by
      rw [fromEnvironment_none, ok_bind] at h
      split at h <;> cases h <;> exact ⟨by decide, by decide⟩
    rw [hgiven, ok_bind, fromEnvironment_empty]
    split
    · rw [ok_bind, if_neg (by simp)]
      exact ⟨_, rfl, .inr ⟨husage, by decide, by decide⟩⟩
    · exact ⟨_, rfl, .inr ⟨husage, hinvalid⟩⟩
  | some found =>
    obtain ⟨command, rest⟩ := found
    dsimp only at h ⊢
    rcases bind_eq_error.1 h with hinner | ⟨inner, hinner, h⟩
    · obtain ⟨usage', hempty, hlooks⟩ := commandGiven_of_error hinner
      rw [hempty]
      exact ⟨usage', rfl, hlooks⟩
    rcases bind_eq_error.1 h with houter | ⟨outer, -, h⟩
    · rw [commandGiven_of_ok hinner]
      split
      · rw [ok_bind, houter]
        exact ⟨usage, rfl, .inl rfl⟩
      · exact ⟨_, rfl, .inr ⟨isMistake_of_settle houter, hinvalid⟩⟩
    · rw [fromEnvironment_none, ok_bind] at h
      cases h

/-- Once a command line is accepted, the settings pass over the empty choice. -/
theorem store_empty (accepted : Invocation) :
    (store (some "") accepted : ExceptT Failure (StateM Disk) Store) = store none accepted := by
  have hchosen : Settings.chosen? accepted.baseDirectory (some "") =
      Settings.chosen? accepted.baseDirectory none := by
    simp [Settings.chosen?, List.findSome?_cons]
  unfold store Settings.baseDirectory
  rw [hchosen]

theorem execute_empty (input : ByteArray) (accepted : Invocation) :
    (execute (pure input) (some "") accepted : ExceptT Failure (StateM Disk) Report) =
      execute (pure input) none accepted := by
  have hresource : (resource (some "") accepted : ExceptT Failure (StateM Disk) Resource) =
      resource none accepted := by
    unfold resource
    rw [store_empty]
  unfold execute plan apply read destroy
  rw [hresource, store_empty]

/-- An empty variable looks as if it were not set only where the command line is refused anyway, and
where both levels are given a base directory. Every other command line is refused for it. -/
theorem empty_environment (input : ByteArray) (arguments : List String) (disk : Disk) :
    (∃ usage usage', runOn input none arguments disk = (.refused usage, disk) ∧
      runOn input (some "") arguments disk = (.refused usage', disk) ∧
      (Ending.refused usage').exitCode = (Ending.refused usage).exitCode ∧
      (Ending.refused usage').output = (Ending.refused usage).output) ∨
    ∃ command outer inner, Levels arguments command outer inner ∧
      invocation none arguments = .ok (invoked command outer inner none) ∧
      runOn input (some "") arguments disk =
        if inner.baseDirectory.isSome && outer.baseDirectory.isSome then
          runOn input none arguments disk
        else (.refused .invalidValue, disk) := by
  cases hunset : invocation none arguments with
  | error usage =>
    obtain ⟨usage', hempty, hlooks⟩ := invocation_empty_of_error hunset
    exact .inl ⟨usage, usage', runOn_refused hunset input disk, runOn_refused hempty input disk,
      hlooks.ending⟩
  | ok accepted =>
    obtain ⟨command, outer, inner, hlevels, rfl⟩ := exists_levels hunset
    refine .inr ⟨command, outer, inner, hlevels, rfl, ?_⟩
    have hempty := hlevels.invocation_empty
    split
    · next hboth =>
      rw [if_pos hboth] at hempty
      cases hrun : Disk.run (execute (pure input) none (invoked command outer inner none)) disk with
      | mk result changed =>
        have hrun' := hrun
        rw [← execute_empty] at hrun'
        rw [runOn_accepted hunset hrun, runOn_accepted hempty hrun']
    · next hboth =>
      rw [if_neg hboth] at hempty
      exact runOn_refused hempty input disk

/-- Rendering has no use for a base directory, and is refused all the same. -/
theorem empty_environment_refuses_render :
    let input := "\x7b\"packageName\": \"lib\"\x7d".toUTF8
    (runOn input none ["render", "-"] Disk.bare).1 =
        .finished ⟨successCode, "package lib\n", ""⟩ ∧
      runOn input (some "") ["render", "-"] Disk.bare = (.refused .invalidValue, Disk.bare) := by
  have hrefused : invocation (some "") ["render", "-"] = .error .invalidValue := by
    decide +kernel
  exact ⟨by decide +kernel, runOn_refused hrefused _ Disk.bare⟩

end DeclaredSource.CommandLine
