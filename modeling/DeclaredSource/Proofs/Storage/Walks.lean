import DeclaredSource.Proofs.Storage.DiskOperations

/-!
# Walks

A walk is made of steps, each of which stays, goes out or enters a name. Where every directory stays
a directory and nothing disappears, a walk that led somewhere still leads there. A walk that does
not climb comes to the place that its names spell, and only what is found on the way there matters
to it.
-/

namespace DeclaredSource.Storage

open Storage.Path

namespace Standpoint

/-- So many directories further out. -/
def climbed (standpoint : Standpoint) (count : Nat) : Standpoint :=
  ⟨standpoint.place.drop count, standpoint.removed - count⟩

theorem climbed_succ (standpoint : Standpoint) (count : Nat) :
    standpoint.climbed (count + 1) = standpoint.outside.climbed count := by
  rw [climbed, climbed, outside, List.drop_tail, Nat.sub_sub, Nat.add_comm 1 count]

end Standpoint

namespace FileTree

variable {tree before after : FileTree} {standpoint next finish : Standpoint} {name : String}
  {pieces : List String}

/-- The three steps of a walk. -/
inductive Enters (tree : FileTree) : Standpoint → String → Standpoint → Prop
  | here {standpoint : Standpoint} (directory : tree.isFile standpoint = false) :
    Enters tree standpoint "." standpoint
  | out {standpoint : Standpoint} (directory : tree.isFile standpoint = false) :
    Enters tree standpoint ".." standpoint.outside
  | into {place : Location} {name : String} (directory : tree.isFile ⟨place, 0⟩ = false)
    (point : name ≠ ".") (level : name ≠ "..") (short : name.utf8ByteSize ≤ longestName)
    (found : tree.find (name :: place) ≠ none) :
    Enters tree ⟨place, 0⟩ name ⟨name :: place, 0⟩

theorem enter_eq_ok : tree.enter standpoint name = .ok next ↔ Enters tree standpoint name next := by
  constructor
  · intro h
    rw [enter] at h
    split at h
    · cases h
    next hfile =>
    rw [Bool.not_eq_true] at hfile
    split at h
    · next hpoint =>
      cases h
      exact hpoint ▸ .here hfile
    next hpoint =>
    split at h
    · next hup =>
      cases h
      exact hup ▸ .out hfile
    next hup =>
    split at h
    · cases h
    next hremoved =>
    split at h
    · cases h
    next hshort =>
    split at h
    · cases h
    next hfound =>
    obtain ⟨place, removed⟩ := standpoint
    obtain rfl : removed = 0 := not_not.1 hremoved
    cases h
    exact .into hfile hpoint hup (Nat.not_lt.1 hshort) hfound
  · intro h
    cases h with
    | here directory => rw [enter, directory]; rfl
    | out directory => rw [enter, directory]; rfl
    | into directory point level short found =>
      rw [enter, directory, if_neg (by decide), if_neg point, if_neg level, if_neg (by simp),
        if_neg (Nat.not_lt.2 short), if_neg found]

theorem walk_cons_eq_ok :
    tree.walk standpoint (name :: pieces) = .ok finish ↔
      ∃ next, Enters tree standpoint name next ∧ tree.walk next pieces = .ok finish := by
  rw [walk]
  cases henter : tree.enter standpoint name with
  | error cause => simp [← enter_eq_ok, henter]
  | ok next => simp [← enter_eq_ok, henter]

theorem walk_append_eq_ok {pieces' : List String} :
    tree.walk standpoint (pieces ++ pieces') = .ok finish ↔
      ∃ next, tree.walk standpoint pieces = .ok next ∧ tree.walk next pieces' = .ok finish := by
  rw [walk_append]
  cases hwalk : tree.walk standpoint pieces with
  | error cause => simp [Except.bind]
  | ok next => simp [Except.bind]

theorem walk_concat_eq_ok :
    tree.walk standpoint (pieces ++ [name]) = .ok finish ↔
      ∃ next, tree.walk standpoint pieces = .ok next ∧ Enters tree next name finish := by
  rw [walk_append_eq_ok]
  apply exists_congr
  intro next
  rw [walk_cons_eq_ok]
  simp only [walk, Except.ok.injEq, exists_eq_right]

/-- What is not a file stands in a directory, or in what is left of the way to one. -/
def Grounded (tree : FileTree) (standpoint : Standpoint) : Prop :=
  tree.isFile standpoint = false → tree.find standpoint.kept = some .directory

theorem isFile_eq_true : tree.isFile standpoint = true ↔
    standpoint.removed = 0 ∧ ∃ contents, tree.find standpoint.place = some (.file contents) := by
  rw [isFile, entryAt]
  split
  · next contents hentry =>
    split at hentry
    · next hremoved => exact iff_of_true rfl ⟨hremoved, contents, hentry⟩
    · cases hentry
  · next hother =>
    refine iff_of_false (by simp) ?_
    rintro ⟨hremoved, contents, hfile⟩
    exact hother contents (by rw [if_pos hremoved, hfile])

theorem isFile_eq_false_of_kept (h : tree.find standpoint.kept = some .directory) :
    tree.isFile standpoint = false := by
  have hentry : tree.entryAt standpoint = some .directory := by
    rw [entryAt]
    split
    · next hremoved => rwa [Standpoint.kept, hremoved, List.drop_zero] at h
    · rfl
  rw [isFile, hentry]

theorem find_kept_outside (h : tree.find standpoint.kept = some .directory) :
    tree.find standpoint.outside.kept = some .directory := by
  obtain ⟨place, removed⟩ := standpoint
  cases removed with
  | succ removed =>
    rwa [Standpoint.kept, ← List.drop_tail] at h
  | zero =>
    cases place with
    | nil => exact tree.find_root
    | cons inner outer =>
      have hinner : tree.find (inner :: outer) ≠ none := by
        rw [show tree.find (inner :: outer) = some .directory from h]
        simp
      exact find_parent hinner

theorem Enters.grounded (h : Enters tree standpoint name next)
    (hgrounded : tree.Grounded standpoint) : tree.Grounded next := by
  cases h with
  | here directory => exact hgrounded
  | out directory => exact fun _ ↦ find_kept_outside (hgrounded directory)
  | @into place _ directory point level short found =>
    intro hfile
    rw [← Bool.not_eq_true, isFile_eq_true] at hfile
    rw [Standpoint.kept, List.drop_zero]
    obtain ⟨entry, hentry⟩ := Option.ne_none_iff_exists'.1 found
    cases entry with
    | directory => exact hentry
    | file contents => exact absurd ⟨rfl, contents, hentry⟩ hfile

/-- Directories stay directories, and nothing disappears. -/
structure Keeps (before after : FileTree) : Prop where
  directory : ∀ place, before.find place = some .directory → after.find place = some .directory
  found : ∀ place, before.find place ≠ none → after.find place ≠ none

theorem Enters.kept (h : Enters before standpoint name next) (hkeeps : Keeps before after)
    (hgrounded : before.Grounded standpoint) : Enters after standpoint name next := by
  have hfile (directory : before.isFile standpoint = false) : after.isFile standpoint = false :=
    isFile_eq_false_of_kept (hkeeps.directory _ (hgrounded directory))
  cases h with
  | here directory => exact .here (hfile directory)
  | out directory => exact .out (hfile directory)
  | into directory point level short found =>
    exact .into (hfile directory) point level short (hkeeps.found _ found)

theorem walk_kept (hkeeps : Keeps before after) (hgrounded : before.Grounded standpoint)
    (h : before.walk standpoint pieces = .ok finish) :
    after.walk standpoint pieces = .ok finish := by
  induction pieces generalizing standpoint with
  | nil => exact h
  | cons piece pieces ih =>
    obtain ⟨next, henters, hwalk⟩ := walk_cons_eq_ok.1 h
    exact walk_cons_eq_ok.2
      ⟨next, henters.kept hkeeps hgrounded, ih (henters.grounded hgrounded) hwalk⟩

theorem walk_grounded (hgrounded : tree.Grounded standpoint)
    (h : tree.walk standpoint pieces = .ok finish) : tree.Grounded finish := by
  induction pieces generalizing standpoint with
  | nil =>
    cases h
    exact hgrounded
  | cons piece pieces ih =>
    obtain ⟨next, henters, hwalk⟩ := walk_cons_eq_ok.1 h
    exact ih (henters.grounded hgrounded) hwalk

/-- From what is left of a way there is always a way out. -/
theorem walk_ups (h : tree.find standpoint.kept = some .directory) (count : Nat) :
    tree.walk standpoint (List.replicate count "..") = .ok (standpoint.climbed count) := by
  induction count generalizing standpoint with
  | zero => rfl
  | succ count ih =>
    rw [List.replicate_succ, Standpoint.climbed_succ]
    exact walk_cons_eq_ok.2
      ⟨_, .out (isFile_eq_false_of_kept h), ih (find_kept_outside h)⟩

/-- It comes to the place that its names spell. Where nothing can be entered it enters no name. -/
theorem walk_level (h : tree.walk standpoint pieces = .ok finish) (present : "" ∉ pieces)
    (level : ".." ∉ pieces) :
    finish = ⟨(proper pieces).reverse ++ standpoint.place, standpoint.removed⟩ ∧
      (standpoint.removed = 0 ∨ proper pieces = []) ∧
      ∀ name ∈ proper pieces, name.utf8ByteSize ≤ longestName := by
  induction pieces generalizing standpoint with
  | nil =>
    cases h
    exact ⟨rfl, .inr rfl, by simp⟩
  | cons piece pieces ih =>
    obtain ⟨next, henters, hwalk⟩ := walk_cons_eq_ok.1 h
    rw [List.mem_cons, not_or] at present level
    cases henters with
    | here directory =>
      rw [proper_cons_of_idle (by decide)]
      exact ih hwalk present.2 level.2
    | out directory => exact absurd rfl level.1
    | into directory point up short found =>
      have hidle : isIdle piece = false := by simp [isIdle, Ne.symm present.1, point]
      obtain ⟨hfinish, -, hshort⟩ := ih hwalk present.2 level.2
      rw [proper_cons_of_name hidle, List.reverse_cons, List.append_assoc, List.forall_mem_cons]
      exact ⟨hfinish, .inl rfl, short, hshort⟩

/-- Everything that is found is still found. -/
def Grows (before after : FileTree) : Prop :=
  ∀ place entry, before.find place = some entry → after.find place = some entry

theorem Grows.keeps (h : Grows before after) : Keeps before after where
  directory place := h place .directory
  found := by
    intro place hfound
    obtain ⟨entry, hentry⟩ := Option.ne_none_iff_exists'.1 hfound
    rw [h place entry hentry]
    simp

theorem Grows.isFile (h : Grows before after) (hfile : after.isFile standpoint = false) :
    before.isFile standpoint = false := by
  rw [← Bool.not_eq_true, isFile_eq_true] at hfile ⊢
  rintro ⟨hremoved, contents, hfound⟩
  exact hfile ⟨hremoved, contents, h _ _ hfound⟩

/-- A walk that does not climb and leads to what was there before led there before as well. -/
theorem walk_before (hgrows : Grows before after) (level : ".." ∉ pieces)
    (h : after.walk standpoint pieces = .ok finish) (hfound : before.find finish.place ≠ none) :
    before.walk standpoint pieces = .ok finish := by
  -- From the end inwards: what the last name enters was there, and so its directory was there.
  induction pieces using List.reverseRecOn generalizing finish with
  | nil => exact h
  | append_singleton init last ih =>
    obtain ⟨next, hwalk, henters⟩ := walk_concat_eq_ok.1 h
    rw [List.mem_append, not_or] at level
    cases henters with
    | here directory =>
      exact walk_concat_eq_ok.2 ⟨_, ih level.1 hwalk hfound, .here (hgrows.isFile directory)⟩
    | out directory => exact absurd (List.mem_singleton_self "..") level.2
    | @into place _ directory point up short _ =>
      have hparent : before.find place ≠ none := by
        rw [find_parent hfound]
        simp
      exact walk_concat_eq_ok.2
        ⟨_, ih level.1 hwalk hparent, .into (hgrows.isFile directory) point up short hfound⟩

end FileTree

end DeclaredSource.Storage
