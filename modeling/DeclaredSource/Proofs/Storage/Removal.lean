import DeclaredSource.Proofs.Storage.Effects
import DeclaredSource.Proofs.Storage.LevelPath
import DeclaredSource.Proofs.Storage.StoreRuns

/-!
# Removing a file

A file is removed together with the directories on the way to it that held nothing else, from the
innermost outwards. How far out this may go is said by normal forms: as far as the base directory
when the file is below it, and not at all otherwise. Removing those directories never fails, since
the normal form of the file's path leads through them.
-/

namespace DeclaredSource.Storage

open Storage.Path FileTree

namespace FileTree

variable {before tree after : FileTree} {file kept outer names : List String}
  {name inner : String}

/-- The names are on the way to the file and further inwards than the kept ones, or the file's. -/
def Passes (kept file names : List String) : Prop :=
  kept <+: names ∧ names ≠ kept ∧ names <+: file

instance (kept file names : List String) : Decidable (Passes kept file names) :=
  inferInstanceAs (Decidable (_ ∧ _ ∧ _))

theorem not_passes_self : ¬ Passes kept file kept :=
  fun hpasses ↦ hpasses.2.1 rfl

/-- One step inwards. -/
theorem passes_concat (hleads : outer ++ [name] <+: file) :
    Passes outer file names ↔ names = outer ++ [name] ∨ Passes (outer ++ [name]) file names := by
  constructor
  · rintro ⟨hinside, hne, hpre⟩
    rcases List.prefix_or_prefix_of_prefix hpre hleads with hout | hin
    · rcases List.prefix_concat_iff.1 hout with hsame | hle
      · exact .inl hsame
      · exact absurd (hle.eq_of_length_le hinside.length_le) hne
    · by_cases hsame : names = outer ++ [name]
      · exact .inl hsame
      · exact .inr ⟨hin, hsame, hpre⟩
  · have hinside := List.prefix_append outer [name]
    rintro (rfl | ⟨hin, -, hpre⟩)
    · exact ⟨hinside, by simp, hleads⟩
    · refine ⟨hinside.trans hin, ?_, hpre⟩
      rintro rfl
      exact not_concat_leads hin

theorem passes_last : Passes outer (outer ++ [name]) names ↔ names = outer ++ [name] := by
  rw [passes_concat (List.prefix_refl _), or_iff_left]
  rintro ⟨hin, hne, hpre⟩
  exact hne (hpre.eq_of_length_le hin.length_le)

/-- Nothing is directly inside but what leads to the file. -/
def HoldsOnly (tree : FileTree) (outer file : List String) : Prop :=
  ∀ inner, tree.lookup (outer ++ [inner]) ≠ none → outer ++ [inner] <+: file

/-- The file is gone with the directories on the way to it from the kept one, each of which held
nothing else, and all else is as it was. -/
structure Clears (before after : FileTree) (file kept : List String) : Prop where
  leads : kept <+: file
  strict : kept ≠ file
  held : ∀ names, Passes kept file names → names ≠ file → before.HoldsOnly names file
  lookup : ∀ names, after.lookup names =
    if Passes kept file names then none else before.lookup names

/-- At first only the file is gone. -/
theorem Clears.of_puts (h : Puts before after (outer ++ [name]) none) :
    Clears before after (outer ++ [name]) outer where
  leads := List.prefix_append outer [name]
  strict := by simp
  held := fun names hpasses hother ↦ absurd (passes_last.1 hpasses) hother
  lookup := by
    intro names
    rw [h]
    simp only [passes_last]

theorem Clears.lookup_kept (h : Clears before tree file kept) :
    tree.lookup kept = before.lookup kept := by
  rw [h.lookup, if_neg not_passes_self]

theorem Clears.directory (h : Clears before tree file kept) (hfile : before.lookup file ≠ none) :
    tree.lookup kept = some .directory := by
  rw [h.lookup_kept]
  exact lookup_outer h.leads h.strict hfile

/-- What is left in the kept directory was there before and does not lead to the file. -/
theorem Clears.not_holdsOnly (h : Clears before tree file kept)
    (hinner : tree.lookup (kept ++ [inner]) ≠ none) : ¬ before.HoldsOnly kept file := by
  rw [h.lookup] at hinner
  split at hinner
  · exact absurd rfl hinner
  next hstays =>
  intro hholds
  exact hstays ⟨List.prefix_append kept [inner], by simp, hholds inner hinner⟩

theorem Clears.holdsOnly (h : Clears before tree file kept)
    (halone : ∀ inner, tree.lookup (kept ++ [inner]) = none) : before.HoldsOnly kept file := by
  intro inner hfound
  by_contra hother
  have hsame := h.lookup (kept ++ [inner])
  rw [if_neg (fun hpasses ↦ hother hpasses.2.2), halone inner] at hsame
  exact hfound hsame.symm

/-- Every other file stays, and so does every directory that held something else. -/
theorem Clears.stays (h : Clears before after file kept) (hfile : before.lookup file ≠ none)
    (hother : names ≠ file)
    (hholds : before.lookup names = some .directory → ¬ before.HoldsOnly names file) :
    after.lookup names = before.lookup names := by
  rw [h.lookup, if_neg]
  intro hpasses
  exact hholds (lookup_outer hpasses.2.2 hother hfile) (h.held names hpasses hother)

/-- The kept directory is gone as well when nothing was left in it. -/
theorem Clears.further (h : Clears before tree file (outer ++ [name]))
    (halone : ∀ inner, tree.lookup (outer ++ [name] ++ [inner]) = none)
    (hputs : Puts tree after (outer ++ [name]) none) : Clears before after file outer where
  leads := (List.prefix_append outer [name]).trans h.leads
  strict := by
    rintro rfl
    exact not_concat_leads h.leads
  held := by
    intro names hpasses hother
    rcases (passes_concat h.leads).1 hpasses with rfl | hinner
    · exact h.holdsOnly halone
    · exact h.held names hinner hother
  lookup := by
    intro names
    calc
      after.lookup names =
          if names = outer ++ [name] then none
          else if Passes (outer ++ [name]) file names then none else before.lookup names := by
        rw [hputs, h.lookup]
      _ = if Passes outer file names then none else before.lookup names := by
        simp only [passes_concat h.leads, ite_or]

end FileTree

namespace Disk

variable {disk changed : Disk} {anchor : Anchor} {outer inner : List String} {name : String}
  {count : Nat}

/-- Removing a directory further inwards does not matter to where climbing comes to. -/
theorem climbed_of_afterRemoving (h : (disk.origin anchor).climbed count = under outer)
    (hworking : changed.workingDirectory =
      disk.workingDirectory.afterRemoving (name :: (outer ++ inner).reverse)) :
    (changed.origin anchor).climbed count = under outer := by
  rw [Disk.origin] at h ⊢
  split at h
  · next hroot => rw [if_pos hroot, h]
  next hrelative =>
  rw [if_neg hrelative, hworking, Standpoint.afterRemoving]
  split
  · next hkept =>
    obtain ⟨hplace, hremoved⟩ := Standpoint.mk.inj h
    rw [Nat.sub_eq_zero_iff_le] at hremoved
    -- Were nothing left to climb, the directory that was removed would be where climbing ends.
    have hclimbs : disk.workingDirectory.removed ≠ count := by
      intro heq
      rw [Standpoint.kept, heq, hplace] at hkept
      have hlength := congrArg List.length hkept
      rw [List.length_cons, List.length_reverse, List.length_reverse, List.length_append]
        at hlength
      omega
    have hless : disk.workingDirectory.removed + 1 - count = 0 := by omega
    change Standpoint.mk (disk.workingDirectory.place.drop count) _ = _
    rw [hplace, hless]
    rfl
  · exact h

end Disk

namespace Store

open Disk

variable {disk : Disk} {before : FileTree} {path : Path} {anchor : Anchor}
  {names outer base directories file : List String}

/-- The loop stops at the base directory or at a directory that held something else. -/
theorem removeEmpty_clears (h : path.Levels anchor names) (accepted : refusal? path = none)
    (short : ∀ name ∈ names, name.utf8ByteSize ≤ longestName)
    (hpre : base ++ directories <+: names) (hfile : before.lookup file ≠ none)
    (horigin : disk.origin anchor = under outer)
    (hclears : Clears before disk.tree file (outer ++ base ++ directories)) :
    ∃ (changed : Disk) (kept : List String),
      run (removeEmpty (assemble anchor base) directories.reverse) disk = (.ok (), changed) ∧
        Clears before changed.tree file kept ∧ outer ++ base <+: kept ∧
          (kept = outer ++ base ∨ ¬ before.HoldsOnly kept file) := by
  -- What the directories held is said of the tree before the file went, which stays the same while
  -- the disk changes; `Clears` carries it from one directory to the next one outwards.
  induction directories using List.reverseRecOn generalizing disk with
  | nil =>
    rw [List.append_nil] at hclears
    exact ⟨disk, outer ++ base, rfl, hclears, List.prefix_refl _, .inl rfl⟩
  | append_singleton directories name ih =>
    have hpresent : directories ++ [name] ≠ [] := by simp
    have hnames : outer ++ (base ++ (directories ++ [name])) =
        outer ++ base ++ directories ++ [name] := by
      simp only [List.append_assoc]
    have hproper := isIdle_of_named (h.named_of_prefix hpre)
    have hjoin := join_assemble h.relative hproper hpresent
    have hreaches : disk.Reaches ((assemble anchor base).join ⟨directories ++ [name]⟩)
        (outer ++ base ++ directories ++ [name]) := by
      rw [hjoin, ← hnames]
      exact reaches_of_levels h accepted short horigin hpre (by simp)
    have hend : ((assemble anchor base).join ⟨directories ++ [name]⟩).EndsInName := by
      rw [hjoin]
      exact assemble_endsInName hproper (by simp)
    rw [← List.append_assoc] at hclears
    have hfound := hclears.directory hfile
    by_cases halone : ∀ inner,
        disk.tree.lookup (outer ++ base ++ directories ++ [name] ++ [inner]) = none
    · obtain ⟨between, hputs, hworking, hrun⟩ := removeEmpty_gone hreaches hend hfound halone
      have hclimbed : (disk.origin anchor).climbed 0 = under outer := horigin
      have hstart : between.origin anchor = under outer := by
        rw [List.append_assoc] at hworking
        exact climbed_of_afterRemoving hclimbed hworking
      have houter : base ++ directories <+: names := by
        rw [← List.append_assoc] at hpre
        exact (List.prefix_append _ [name]).trans hpre
      rw [hrun]
      exact ih houter hstart (hclears.further halone hputs)
    · rw [not_forall] at halone
      obtain ⟨inner, hinner⟩ := halone
      refine ⟨disk, _, removeEmpty_kept hreaches hfound hinner, hclears, ?_,
        .inr (hclears.not_holdsOnly hinner)⟩
      rw [List.append_assoc (outer ++ base)]
      exact List.prefix_append (outer ++ base) _

/-! ## The effect of removing -/

/-- By normal forms the path goes on from the base directory, through the directories to a name. -/
def IsBelow (base path : Path) (directories : List String) (name : String) : Prop :=
  path.normalize.components = base.normalize.components ++ (directories ++ [name]).map .name

/-- How far out directories may be removed together with a file: as far as the base directory, which
its normal form leads to, when the file is below it, and not at all otherwise. -/
structure Bounds (store : Store) (disk : Disk) (path : Path) (file bound : List String) : Prop where
  below : ∀ directories name, IsBelow store.baseDirectory path directories name →
    file = bound ++ directories ++ [name] ∧
      disk.tree.walk (disk.start store.baseDirectory.normalize)
        store.baseDirectory.normalize.names = .ok (under bound)
  elsewhere : (∀ directories name, ¬ IsBelow store.baseDirectory path directories name) →
    bound = file.dropLast

variable {store : Store} {filename name : String} {between : Disk}

theorem isBelow_inj {path base : Path} {directories directories' : List String}
    {name name' : String}
    (h : IsBelow base path directories name) (h' : IsBelow base path directories' name') :
    directories = directories' ∧ name = name' := by
  have hsame := List.append_cancel_left (h.symm.trans h')
  have hnames := List.map_injective_iff.2 (fun _ _ ↦ Component.name.inj) hsame
  obtain ⟨hdirectories, hname⟩ := List.append_inj' hnames rfl
  exact ⟨hdirectories, (List.cons.inj hname).1⟩

/-- What has become of a disk from which the file was removed: the directories on the way to it that
held nothing else are gone with it, from the innermost outwards, as far as the bound. -/
structure Removed (store : Store) (filename : String) (disk changed : Disk)
    (file bound kept : List String) : Prop where
  located : disk.locate (store.resolve filename) = .ok (under file)
  found : ∃ contents, disk.tree.lookup file = some (.file contents)
  bounds : store.Bounds disk (store.resolve filename) file bound
  clears : Clears disk.tree changed.tree file kept
  inside : bound <+: kept
  stopped : kept = bound ∨ ¬ disk.tree.HoldsOnly kept file
  stays : ∀ names, names ≠ file →
    (disk.tree.lookup names = some .directory → ¬ disk.tree.HoldsOnly names file) →
      changed.tree.lookup names = disk.tree.lookup names

theorem removed_elsewhere (hremoved : disk.removeFile (store.resolve filename) = .ok between)
    (helsewhere : ∀ directories name,
      ¬ IsBelow store.baseDirectory (store.resolve filename) directories name) :
    ∃ (changed : Disk) (file bound kept : List String),
      run (store.remove filename) disk = (.ok (), changed) ∧
        store.Removed filename disk changed file bound kept := by
  obtain ⟨outer, last, contents, accepted, closed, hwalk, hfile, hputs, -⟩ :=
    removeFile_eq_ok hremoved
  have hclears := Clears.of_puts hputs
  refine ⟨between, outer ++ [last], outer, outer, ?_, ?_⟩
  · rw [run_remove_ok hremoved, directoriesBetween_eq_nil helsewhere, List.reverse_nil, removeEmpty]
    exact run_pure ()
  · exact {
      located := locate_of_walk accepted hwalk closed
      found := ⟨contents, hfile⟩
      bounds := {
        below := fun directories name hbelow ↦ absurd hbelow (helsewhere directories name)
        elsewhere := fun _ ↦ List.dropLast_concat.symm }
      clears := hclears
      inside := List.prefix_refl outer
      stopped := .inl rfl
      stays := fun _ ↦ hclears.stays (by rw [hfile]; simp) }

theorem removed_below
    (hbase : store.baseDirectory.isAbsolute = true ∨
      store.baseDirectory.normalize.components.head? ≠ some .up)
    (hremoved : disk.removeFile (store.resolve filename) = .ok between)
    (hbelow : IsBelow store.baseDirectory (store.resolve filename) directories name) :
    ∃ (changed : Disk) (file bound kept : List String),
      run (store.remove filename) disk = (.ok (), changed) ∧
        store.Removed filename disk changed file bound kept := by
  obtain ⟨outer, last, contents, accepted, closed, hwalk, hfile, hputs, hworking⟩ :=
    removeFile_eq_ok hremoved
  obtain ⟨anchor, base, hlevels, hcomponents⟩ := exists_levels hbase
  have hpath : (store.resolve filename).Levels anchor (base ++ (directories ++ [name])) := by
    apply levels_of_components hlevels.relative
    rw [hbelow, hcomponents]
    simp only [List.map_append, List.append_assoc]
  obtain ⟨start, horigin, hnames, hshort, hleads⟩ := walk_of_levels hpath hwalk
  have hsplit : outer ++ [last] = start ++ base ++ directories ++ [name] := by
    rw [hnames]
    simp only [List.append_assoc]
  rw [hsplit] at hwalk hfile hputs
  have hpre : base ++ directories <+: base ++ (directories ++ [name]) := by
    rw [← List.append_assoc]
    exact List.prefix_append _ [name]
  have hpresent : disk.tree.lookup (start ++ base ++ directories ++ [name]) ≠ none := by
    rw [hfile]
    simp
  have hafter : between.origin anchor = under start := by
    rw [← horigin, origin, origin, hworking]
  obtain ⟨changed, kept, hrun, hclears, hinside, hstop⟩ :=
    removeEmpty_clears hpath accepted hshort hpre hpresent hafter (.of_puts hputs)
  have hbetween := directoriesBetween_eq hbelow
  rw [List.dropLast_concat] at hbetween
  refine ⟨changed, start ++ base ++ directories ++ [name], start ++ base, kept, ?_, ?_⟩
  · rw [run_remove_ok hremoved, hbetween, hlevels.normal]
    exact hrun
  · have hbase : disk.tree.walk (disk.start store.baseDirectory.normalize)
        store.baseDirectory.normalize.names = .ok (under (start ++ base)) := by
      rw [hlevels.normal, names_assemble hlevels.relative hlevels.forms.proper,
        start_assemble hlevels.relative hlevels.forms.proper]
      exact hleads base (List.prefix_append base _)
    exact {
      located := locate_of_walk accepted hwalk closed
      found := ⟨contents, hfile⟩
      bounds := {
        below := by
          intro directories' name' hbelow'
          obtain ⟨rfl, rfl⟩ := isBelow_inj hbelow hbelow'
          exact ⟨rfl, hbase⟩
        elsewhere := fun helsewhere ↦ absurd hbelow (helsewhere directories name) }
      clears := hclears
      inside := hinside
      stopped := hstop
      stays := fun _ ↦ hclears.stays hpresent }

/-- Once the file is gone, removing does not fail. -/
theorem removed
    (hbase : store.baseDirectory.isAbsolute = true ∨
      store.baseDirectory.normalize.components.head? ≠ some .up)
    (hremoved : disk.removeFile (store.resolve filename) = .ok between) :
    ∃ (changed : Disk) (file bound kept : List String),
      run (store.remove filename) disk = (.ok (), changed) ∧
        store.Removed filename disk changed file bound kept := by
  by_cases hbelow : ∃ directories name,
      IsBelow store.baseDirectory (store.resolve filename) directories name
  · obtain ⟨directories, name, hbelow⟩ := hbelow
    exact removed_below hbase hremoved hbelow
  · simp only [not_exists] at hbelow
    exact removed_elsewhere hremoved hbelow

/-- Removing fails only when the file cannot be removed, and it then changes nothing. Otherwise the
file goes with the directories on the way to it that held nothing else, up to the bound. -/
theorem remove_clears_to_bound (store : Store) (filename : String) (disk : Disk)
    (hbase : store.baseDirectory.isAbsolute = true ∨
      store.baseDirectory.normalize.components.head? ≠ some .up) :
    (∀ cause, disk.removeFile (store.resolve filename) = .error cause →
        run (store.remove filename) disk =
          (.error ⟨.remove, store.resolve filename, cause⟩, disk)) ∧
      ∀ between, disk.removeFile (store.resolve filename) = .ok between →
        ∃ (changed : Disk) (file bound kept : List String),
          run (store.remove filename) disk = (.ok (), changed) ∧
            store.Removed filename disk changed file bound kept := by
  refine ⟨fun cause ↦ run_remove_error, ?_⟩
  intro between hremoved
  exact removed hbase hremoved

/-- A store that holds one file, two directories inside its base directory. -/
def lonely : Store :=
  ⟨Path.ofString "/out/gen/"⟩

def lonelyDisk : Disk :=
  (run (lonely.write "a/b/lib.go" "package lib\n") bare).2

/-- The filename climbs out of the base directory and back into it. -/
theorem remove_clears_lonely :
    (∃ (changed : Disk) (file bound kept : List String),
      run (lonely.remove "a/../../gen/./a//b/lib.go") lonelyDisk = (.ok (), changed) ∧
        lonely.Removed "a/../../gen/./a//b/lib.go" lonelyDisk changed file bound kept) ∧
      (run (lonely.remove "a/../../gen/./a//b/lib.go") lonelyDisk).2.tree.lookup
        ["out", "gen", "a"] = none := by
  have hremoves := remove_clears_to_bound lonely "a/../../gen/./a//b/lib.go" lonelyDisk (.inl rfl)
  exact ⟨hremoves.2 _ rfl, by decide +kernel⟩

end Store

end DeclaredSource.Storage
