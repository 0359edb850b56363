import DeclaredSource.Proofs.Storage.StoreRuns
import DeclaredSource.Resource

/-!
# Runs of a resource on a disk

What the operations of a resource answer on a disk, given what the declaration generates, what is
read of the file that is there and what writing it comes to. Planning and applying read with one
program, and what they do after that is decided by the text that was read. Updating is applying
without the outcome, so whatever holds of applying holds of it.
-/

namespace DeclaredSource.Text

/-- Texts that differ have a difference. -/
theorem lineDiff_of_ne {current desired : String} (h : current ≠ desired) :
    ∃ diff, lineDiff current desired = some diff := by
  rw [lineDiff, if_neg h]
  split
  · exact ⟨_, rfl⟩
  · exact ⟨_, rfl⟩

theorem lines_ne_nil {text : String} (h : text ≠ "") : lines text ≠ [] := by
  obtain ⟨init, last, hcut⟩ :=
    (List.eq_nil_or_concat' (cut '\n' text.toList)).resolve_left (cut_ne_nil _ _)
  rw [lines, lineChars, hcut, List.dropLast_concat, List.getLast?_concat]
  intro hnone
  simp only [List.map_eq_nil_iff, List.append_eq_nil_iff] at hnone
  obtain ⟨rfl, hlast⟩ := hnone
  have htext : last = text.toList := by
    have hjoined := intercalate_cut '\n' text.toList
    rwa [hcut, List.nil_append, List.intercalate_singleton] at hjoined
  have hpresent : last ≠ [] := by
    rw [htext]
    simpa using h
  simp [hpresent] at hlast

theorem lineChanges_nil (new : List String) :
    lineChanges [] new = (new.zipIdx 1).map fun (line, number) ↦ .added number line := by
  calc
    lineChanges [] new = ((new.map fun line ↦ (none, some line)).zipIdx 1).flatMap
        fun entry ↦ changesAt entry.2 entry.1.1 entry.1.2 := by
      rw [lineChanges, List.nil_zipWithAll]
    _ = (new.zipIdx 1).flatMap fun entry ↦ [.added entry.2 entry.1] := by
      rw [List.zipIdx_map, List.flatMap_map]
      rfl
    _ = (new.zipIdx 1).map fun entry ↦ .added entry.2 entry.1 := by
      rw [List.map_eq_flatMap]

/-- The difference to nothing is what is listed. -/
theorem lineDiff_empty {text : String} (h : text ≠ "") :
    lineDiff "" text = some (listing text) := by
  rw [lineDiff, if_neg (Ne.symm h), show lines "" = [] from rfl, lineChanges_nil]
  split
  · next hnone => simp [lines_ne_nil h] at hnone
  · rfl

end DeclaredSource.Text

namespace DeclaredSource.Resource

open Storage Disk

/-- What a change from the text that is kept, if any, to the desired one comes to. -/
def changeFrom (existing : Option String) (desired : String) : Outcome :=
  match existing with
  | none => .create desired
  | some current =>
    if current = desired then .noChange else .update ((Text.lineDiff current desired).getD "")

theorem outcome_eq (existing : Option String) (desired : String) :
    outcome existing desired = changeFrom existing desired := by
  cases existing with
  | none => rfl
  | some current =>
    rw [changeFrom, outcome]
    by_cases hsame : current = desired
    · rw [if_pos hsame, Text.lineDiff, if_pos hsame]
    · obtain ⟨diff, hdiff⟩ := Text.lineDiff_of_ne hsame
      rw [if_neg hsame, hdiff, Option.getD_some]

theorem changeFrom_eq_noChange {existing : Option String} {desired : String} :
    changeFrom existing desired = .noChange ↔ existing = some desired := by
  cases existing with
  | none => simp [changeFrom]
  | some current =>
    rw [changeFrom]
    split
    · next h => simp [h]
    · next h => simp [h]

theorem changeFrom_eq_create {existing : Option String} {desired text : String} :
    changeFrom existing desired = .create text ↔ existing = none ∧ desired = text := by
  cases existing with
  | none => simp [changeFrom]
  | some current =>
    rw [changeFrom]
    split <;> simp

/-- Updating is applying, but for the outcome that is told. -/
theorem update_eq_apply {m : Type → Type} [Monad m] [LawfulMonad m] [Files m] (resource : Resource)
    (filename : String) (declaration : Json) :
    (resource.update filename declaration : ExceptT ResourceError m FileState) =
      resource.apply filename declaration >>= fun applied ↦ pure applied.1 := by
  unfold update apply compare
  rw [bind_assoc]
  refine bind_congr fun text ↦ ?_
  rw [bind_assoc, bind_assoc]
  refine bind_congr fun existing ↦ ?_
  rw [pure_bind, outcome_eq]
  by_cases hsame : existing = some text
  · rw [if_pos hsame, if_pos (changeFrom_eq_noChange.2 hsame), pure_bind]
  · rw [if_neg hsame, if_neg (mt changeFrom_eq_noChange.1 hsame), bind_assoc]
    simp only [pure_bind]

section Runs

variable {α : Type} {resource : Resource} {disk changed : Disk} {filename : String}
  {declaration : Json} {text : String}

theorem run_stored {operation : ExceptT StoreError (StateM Disk) α} {result : Except StoreError α}
    (h : run operation disk = (result, changed)) :
    run (stored operation) disk = (result.mapError .storage, changed) := by
  have hstored : run (stored operation) disk =
      ((run operation disk).1.mapError .storage, (run operation disk).2) := rfl
  rw [hstored, h]

theorem run_generate_ok (h : Generation.generate resource.mode declaration = .ok text)
    (disk : Disk) : run (resource.generate declaration) disk = (.ok text, disk) := by
  have hgenerate : run (resource.generate declaration) disk =
      ((Generation.generate resource.mode declaration).mapError .generation, disk) := rfl
  rw [hgenerate, h]
  rfl

theorem run_generate_error {error : Generation.Error}
    (h : Generation.generate resource.mode declaration = .error error) (disk : Disk) :
    run (resource.generate declaration) disk = (.error (.generation error), disk) := by
  have hgenerate : run (resource.generate declaration) disk =
      ((Generation.generate resource.mode declaration).mapError .generation, disk) := rfl
  rw [hgenerate, h]
  rfl

theorem run_compare {existing : Option String}
    (h : run (resource.store.readIfPresent filename) disk = (.ok existing, disk)) :
    run (resource.compare filename text) disk = (.ok (changeFrom existing text), disk) := by
  unfold compare
  rw [← outcome_eq]
  exact (run_bind_ok (run_stored h)).trans (run_pure _)

/-- What comes of writing. -/
def writing {α : Type} (result : Except StoreError Path) (value : α) : Except ResourceError α :=
  (result.mapError .storage).map fun _ ↦ value

theorem writing_eq_ok {result : Except StoreError Path} {value found : α} :
    writing result value = .ok found ↔ (∃ path, result = .ok path) ∧ value = found := by
  cases result <;> simp [writing, Except.map, Except.mapError]

theorem run_create (h : Generation.generate resource.mode declaration = .ok text)
    {result : Except StoreError Path}
    (hwrite : run (resource.store.write filename text) disk = (result, changed)) :
    run (resource.create filename declaration) disk =
      (writing result ⟨filename, text⟩, changed) := by
  unfold create
  apply (run_bind_ok (run_generate_ok h disk)).trans
  exact run_bind_pure (run_stored hwrite) _

theorem run_plan (h : Generation.generate resource.mode declaration = .ok text)
    {existing : Option String}
    (hread : run (resource.store.readIfPresent filename) disk = (.ok existing, disk)) :
    run (resource.plan filename declaration) disk = (.ok (changeFrom existing text), disk) := by
  unfold plan
  exact (run_bind_ok (run_generate_ok h disk)).trans (run_compare hread)

theorem run_apply_same (h : Generation.generate resource.mode declaration = .ok text)
    (hread : run (resource.store.readIfPresent filename) disk = (.ok (some text), disk)) :
    run (resource.apply filename declaration) disk =
      (.ok (⟨filename, text⟩, changeFrom (some text) text), disk) := by
  unfold apply
  apply (run_bind_ok (run_generate_ok h disk)).trans
  apply (run_bind_ok (run_compare hread)).trans
  rw [if_pos (changeFrom_eq_noChange.2 rfl)]
  rfl

theorem run_apply_other (h : Generation.generate resource.mode declaration = .ok text)
    {existing : Option String} (hother : existing ≠ some text)
    (hread : run (resource.store.readIfPresent filename) disk = (.ok existing, disk))
    {result : Except StoreError Path}
    (hwrite : run (resource.store.write filename text) disk = (result, changed)) :
    run (resource.apply filename declaration) disk =
      (writing result (⟨filename, text⟩, changeFrom existing text), changed) := by
  unfold apply
  apply (run_bind_ok (run_generate_ok h disk)).trans
  apply (run_bind_ok (run_compare hread)).trans
  rw [if_neg (fun hsame ↦ hother (changeFrom_eq_noChange.1 hsame))]
  exact run_bind_pure (run_stored hwrite) _

theorem run_update (resource : Resource) (filename : String) (declaration : Json)
    (disk : Disk) :
    run (resource.update filename declaration) disk =
      ((run (resource.apply filename declaration) disk).1.map Prod.fst,
        (run (resource.apply filename declaration) disk).2) := by
  rw [update_eq_apply]
  exact run_bind_pure rfl Prod.fst

/-- Planning and applying fail alike before anything is written, or they find the generated text on
disk, or they find something else, and then applying writes. -/
inductive Courses (resource : Resource) (filename : String) (declaration : Json) (disk : Disk) :
    Prop
  | fails (error : ResourceError)
    (plan : run (resource.plan filename declaration) disk = (.error error, disk))
    (apply : run (resource.apply filename declaration) disk = (.error error, disk)) :
    Courses resource filename declaration disk
  | same (text : String)
    (generated : Generation.generate resource.mode declaration = .ok text)
    (holds : disk.readFile (resource.store.resolve filename) = .ok text.toUTF8)
    (plan : run (resource.plan filename declaration) disk = (.ok .noChange, disk))
    (apply : run (resource.apply filename declaration) disk =
      (.ok (⟨filename, text⟩, .noChange), disk)) :
    Courses resource filename declaration disk
  | writes (text : String) (existing : Option String) (result : Except StoreError Path)
    (changed : Disk) (generated : Generation.generate resource.mode declaration = .ok text)
    (read : run (resource.store.readIfPresent filename) disk = (.ok existing, disk))
    (other : existing ≠ some text)
    (written : run (resource.store.write filename text) disk = (result, changed))
    (plan : run (resource.plan filename declaration) disk = (.ok (changeFrom existing text), disk))
    (apply : run (resource.apply filename declaration) disk =
      (writing result (⟨filename, text⟩, changeFrom existing text), changed)) :
    Courses resource filename declaration disk

theorem courses (resource : Resource) (filename : String) (declaration : Json) (disk : Disk) :
    Courses resource filename declaration disk := by
  cases hgenerate : Generation.generate resource.mode declaration with
  | error error =>
    have hfails := run_generate_error hgenerate disk
    exact .fails _ (run_bind_error hfails) (run_bind_error hfails)
  | ok text =>
    have hgenerated := run_generate_ok hgenerate disk
    have hreads {existing : Option String}
        (hread : run (resource.store.readIfPresent filename) disk = (.ok existing, disk))
        (hother : existing ≠ some text) : Courses resource filename declaration disk :=
      .writes text existing _ _ hgenerate hread hother rfl (run_plan hgenerate hread)
        (run_apply_other hgenerate hother hread rfl)
    rcases resource.store.readIfPresent_cases filename disk with
      ⟨current, hholds, hread⟩ | ⟨-, hread⟩ | ⟨cause, hread⟩
    · by_cases hsame : current = text
      · obtain rfl := hsame
        have hplan := run_plan hgenerate hread
        have happly := run_apply_same hgenerate hread
        rw [changeFrom_eq_noChange.2 rfl] at hplan happly
        exact .same current hgenerate hholds hplan happly
      · exact hreads hread (by simpa using hsame)
    · exact hreads hread (by simp)
    · have hcompare : run (resource.compare filename text) disk =
          (.error (.storage ⟨.read, resource.store.resolve filename, cause⟩), disk) :=
        run_bind_error (run_stored hread)
      exact .fails _ ((run_bind_ok hgenerated).trans hcompare)
        ((run_bind_ok hgenerated).trans (run_bind_error hcompare))

end Runs

end DeclaredSource.Resource
