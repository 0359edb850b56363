import DeclaredSource.Proofs.Storage.Settling

/-!
# Programs that settle a file

Writing a file settles it with what is written, and removing it settles it with nothing, on every
disk where the file is the same. The other way round, a write or a removal that has succeeded was
made on a disk where the file was there or could be put.
-/

namespace DeclaredSource.Storage

open Storage.Path FileTree Disk

namespace FileTree

variable {before between after tree : FileTree} {last : String} {contents : ByteArray}
  {base bound file kept outer inner names : List String}

theorem holds_of_file (h : tree.lookup file = some (.file contents)) :
    View.Holds tree.lookup file (some contents) where
  found := h
  way := by
    intro outer hpre hne bytes hfile
    have hdirectory := lookup_outer hpre hne (by rw [h]; simp)
    rw [hfile] at hdirectory
    cases hdirectory

theorem settle_of_file (base : List String) (h : tree.lookup file = some (.file contents)) :
    View.settle tree.lookup base file (some contents) = tree.lookup := by
  funext names
  rw [View.settle, View.put]
  split
  · next hsame => rw [hsame, h]
  next hother =>
  split
  · next hleads => rw [lookup_outer hleads hother (by rw [h]; simp)]
  · rfl

theorem settle_of_puts (base : List String) (hpaves : Paves before between outer)
    (hputs : Puts between after (outer ++ [last]) (some (.file contents))) :
    after.lookup = View.settle before.lookup base (outer ++ [last]) (some contents) := by
  funext names
  rw [hputs, hpaves, View.settle, View.put]
  by_cases hsame : names = outer ++ [last]
  · rw [if_pos hsame, if_pos hsame]
  · simp only [List.prefix_concat_iff, hsame, false_or]

/-- Whatever is in a cleared directory leads to the file. -/
theorem Clears.leads_of_inner (h : Clears before after file kept)
    (hfile : before.lookup file = some (.file contents)) (hpasses : Passes kept file names)
    (hinner : names <+: inner) (hfound : before.lookup inner ≠ none) : inner <+: file := by
  induction inner using List.reverseRecOn with
  | nil => exact List.nil_prefix
  | append_singleton init last ih =>
    rcases List.prefix_concat_iff.1 hinner with hsame | hinit
    · exact hsame ▸ hpasses.2.2
    · have hdirectory := lookup_parent hfound
      have hleads := ih hinit (by rw [hdirectory]; simp)
      have hne : init ≠ file := by
        rintro rfl
        rw [hfile] at hdirectory
        cases hdirectory
      have hkept : init ≠ kept := by
        rintro rfl
        exact hpasses.2.1 (hinit.eq_of_length_le hpasses.1.length_le)
      exact h.held init ⟨hpasses.1.trans hinit, hkept, hleads⟩ hne last hfound

/-- What is cleared is what leads to nothing but the file. -/
theorem Clears.vacated_iff (h : Clears before after file kept)
    (hfile : before.lookup file = some (.file contents)) (inside : bound <+: kept)
    (stopped : kept = bound ∨ ¬ before.HoldsOnly kept file) :
    View.Vacated before.lookup bound {file} names ↔ Passes kept file names := by
  constructor
  · rintro ⟨⟨swept, rfl, hpasses⟩, hinside⟩
    rcases List.prefix_or_prefix_of_prefix hpasses.2.2 h.leads with hout | hin
    · -- The loop had stopped further inwards, so something else is found there.
      have hne : kept ≠ bound := by
        rintro rfl
        exact hpasses.2.1 (hout.eq_of_length_le hpasses.1.length_le)
      refine absurd ?_ (stopped.resolve_left hne)
      intro inner hfound
      obtain ⟨_, rfl, hleads⟩ := hinside _ (hout.trans (List.prefix_append kept [inner])) hfound
      exact hleads
    · refine ⟨hin, ?_, hpasses.2.2⟩
      rintro rfl
      have hne : names ≠ bound := hpasses.2.1
      refine absurd ?_ (stopped.resolve_left hne)
      intro inner hfound
      obtain ⟨_, rfl, hleads⟩ := hinside _ (List.prefix_append names [inner]) hfound
      exact hleads
  · intro hpasses
    have hne : names ≠ bound := by
      rintro rfl
      exact hpasses.2.1 (inside.eq_of_length_le hpasses.1.length_le)
    refine ⟨⟨file, rfl, inside.trans hpasses.1, hne, hpasses.2.2⟩, ?_⟩
    intro inner hinner hfound
    exact ⟨file, rfl, h.leads_of_inner hfile hpasses hinner hfound⟩

theorem settle_of_clears (h : Clears before after file kept)
    (hfile : before.lookup file = some (.file contents)) (inside : bound <+: kept)
    (stopped : kept = bound ∨ ¬ before.HoldsOnly kept file) :
    after.lookup = View.settle before.lookup bound file none := by
  funext names
  rw [h.lookup, View.settle]
  by_cases hpasses : Passes kept file names
  · rw [if_pos hpasses,
      View.sweep_apply_of_vacated ((h.vacated_iff hfile inside stopped).2 hpasses)]
  · rw [if_neg hpasses,
      View.sweep_apply_of_not_vacated (mt (h.vacated_iff hfile inside stopped).1 hpasses)]

end FileTree

namespace Disk

variable {ε α β : Type} {program : ExceptT ε (StateM Disk) α} {next : ExceptT ε (StateM Disk) β}
  {base file other : List String} {before after : Option ByteArray} {value : α} {answer : β}
  {disk between changed : Disk}

/-- On every disk where the file is the same as before, the program answers the value and settles
the file. -/
def Settles (program : ExceptT ε (StateM Disk) α) (base file : List String)
    (before after : Option ByteArray) (value : α) : Prop :=
  ∀ disk : Disk, View.Holds disk.tree.lookup file before →
    ∃ changed : Disk, run program disk = (.ok value, changed) ∧
      changed.tree.lookup = View.settle disk.tree.lookup base file after

/-- Whenever the program succeeds it settles the file, and would have settled it on any other disk
where the file is the same. -/
def Settling (program : ExceptT ε (StateM Disk) α) (base file : List String) : Prop :=
  ∀ disk value changed, run program disk = (.ok value, changed) →
    ∃ before after, View.Holds disk.tree.lookup file before ∧
      Settles program base file before after value

theorem Settles.map (h : Settles program base file before after value) (answer : α → β) :
    Settles (program >>= fun found ↦ pure (answer found)) base file before after
      (answer value) := by
  intro disk hholds
  obtain ⟨changed, hrun, hlookup⟩ := h disk hholds
  exact ⟨changed, run_bind_pure hrun answer, hlookup⟩

theorem Settling.map (h : Settling program base file) (answer : α → β) :
    Settling (program >>= fun found ↦ pure (answer found)) base file := by
  intro disk value changed hrun
  obtain ⟨found, between, hprogram, hpure⟩ := run_bind_eq_ok.1 hrun
  obtain ⟨before, after, hholds, hsettles⟩ := h disk found between hprogram
  cases hpure
  exact ⟨before, after, hholds, hsettles.map answer⟩

/-- Programs that settle files of which neither is on the way to the other succeed in both orders
or in none, with the same answers and the same effect. -/
theorem Settling.commute (hfirst : Settling program base file) (hsecond : Settling next base other)
    (hfile : ¬ file <+: other) (hother : ¬ other <+: file)
    (hrun : run program disk = (.ok value, between))
    (hrun' : run next between = (.ok answer, changed)) :
    ∃ between' changed', run next disk = (.ok answer, between') ∧
      run program between' = (.ok value, changed') ∧
      changed'.tree.lookup = changed.tree.lookup := by
  obtain ⟨before, after, hholds, hsettles⟩ := hfirst disk value between hrun
  obtain ⟨before', after', hholds', hsettles'⟩ := hsecond between answer changed hrun'
  have hbetween : between.tree.lookup = View.settle disk.tree.lookup base file after := by
    obtain ⟨_, hagain, hlookup⟩ := hsettles disk hholds
    obtain ⟨-, rfl⟩ := Prod.mk.inj (hrun.symm.trans hagain)
    exact hlookup
  have hchanged : changed.tree.lookup = View.settle between.tree.lookup base other after' := by
    obtain ⟨_, hagain, hlookup⟩ := hsettles' between hholds'
    obtain ⟨-, rfl⟩ := Prod.mk.inj (hrun'.symm.trans hagain)
    exact hlookup
  rw [hbetween, hholds.holds_settle hfile hother] at hholds'
  obtain ⟨between', hrunNext, hlookup⟩ := hsettles' disk hholds'
  have hstill : View.Holds between'.tree.lookup file before := by
    rw [hlookup]
    exact (hholds'.holds_settle hother hfile).2 hholds
  obtain ⟨changed', hrunProgram, hlookup'⟩ := hsettles between' hstill
  refine ⟨between', changed', hrunNext, hrunProgram, ?_⟩
  rw [hlookup', hlookup, hchanged, hbetween]
  exact View.settle_comm hother hfile

end Disk

namespace Store

variable {store : Store} {filename text : String} {base key outer : List String} {last : String}
  {disk changed : Disk} {path : Path} {before : Option ByteArray} {contents : ByteArray}

theorem readIfPresent_of_holds {existing : Option String}
    (hspells : (store.resolve filename).Spells (outer ++ [last]))
    (hend : (store.resolve filename).EndsInName)
    (h : View.Holds disk.tree.lookup (outer ++ [last]) (existing.map String.toUTF8)) :
    run (store.readIfPresent filename) disk = (.ok existing, disk) := by
  cases existing with
  | some text => exact readIfPresent_ok (readFile_file (hspells.reaches disk) hend h.found)
  | none =>
    have hopen : disk.tree.Open (outer ++ [last]) := by
      intro names hleads contents hfile
      by_cases hsame : names = outer ++ [last]
      · rw [hsame, h.found] at hfile
        cases hfile
      · exact h.way names hleads hsame contents hfile
    exact readIfPresent_notFound (readFile_missing (hspells.reaches disk) hopen h.found)

/-- What was read says what is held. -/
theorem holds_of_readIfPresent {existing : Option String}
    (hspells : (store.resolve filename).Spells (outer ++ [last]))
    (hend : (store.resolve filename).EndsInName)
    (h : View.Holds disk.tree.lookup (outer ++ [last]) before)
    (hread : run (store.readIfPresent filename) disk = (.ok existing, disk)) :
    existing.map String.toUTF8 = before := by
  cases before with
  | none =>
    have hmissing : run (store.readIfPresent filename) disk = (.ok none, disk) :=
      readIfPresent_of_holds hspells hend h
    rw [hmissing] at hread
    cases hread
    rfl
  | some contents =>
    have hfile := readFile_file (hspells.reaches disk) hend h.found
    rcases store.readIfPresent_cases filename disk with
      ⟨text, htext, hsome⟩ | ⟨hmissing, -⟩ | ⟨cause, herror⟩
    · rw [hsome] at hread
      rw [hfile] at htext
      cases hread
      cases htext
      rfl
    · rw [hfile] at hmissing
      cases hmissing
    · rw [herror] at hread
      cases hread

theorem settles_write (h : store.Placed filename outer last) (base : List String)
    (before : Option ByteArray) (text : String) :
    Settles (store.write filename text) base (outer ++ [last]) before (some text.toUTF8)
      (store.resolve filename) := by
  intro disk hholds
  have hopen : disk.tree.Open outer := by
    intro names hleads contents
    refine hholds.way names (hleads.trans (List.prefix_append outer [last])) ?_ contents
    rintro rfl
    exact not_concat_leads hleads
  have hfits : disk.tree.lookup (outer ++ [last]) ≠ some .directory := by
    rw [hholds.found]
    cases before <;> simp
  obtain ⟨between, changed, hrun, hpaves, hputs⟩ := write_run h hopen hfits text
  exact ⟨changed, hrun, settle_of_puts base hpaves hputs⟩

/-- Where a file can be put it is held, or nothing is. -/
theorem holds_of_placeFile {between : Disk} (hextends : Extends disk between)
    (htargets : between.Targets path outer last)
    (hfits : between.tree.lookup (outer ++ [last]) ≠ some .directory) :
    ∃ before, View.Holds disk.tree.lookup (outer ++ [last]) before := by
  have hgrounded := walk_grounded (between.grounded_start path) htargets.walk
  have hdirectory : between.tree.lookup outer = some .directory := hgrounded htargets.directory
  cases hentry : disk.tree.lookup (outer ++ [last]) with
  | some entry =>
    cases entry with
    | directory => exact absurd (hextends.lookup hentry) hfits
    | file contents => exact ⟨some contents, holds_of_file hentry⟩
  | none =>
    refine ⟨none, hentry, fun names hleads hne contents hfile ↦ ?_⟩
    have hway := (List.prefix_concat_iff.1 hleads).resolve_left hne
    have hboth := (hextends.lookup hfile).symm.trans (lookup_outer_directory hway hdirectory)
    cases hboth

/-- A write that succeeds was made of a path that spells its names, where the file could be put. -/
theorem placed_of_write (hdenotes : (store.resolve filename).Denotes key)
    (h : run (store.write filename text) disk = (.ok path, changed)) :
    ∃ outer last before, key = outer ++ [last] ∧ store.Placed filename outer last ∧
      View.Holds disk.tree.lookup key before := by
  obtain ⟨hspells, hend, -⟩ := spells_of_readFile hdenotes (readFile_of_write h)
  obtain ⟨-, between, hextends, hreplace⟩ := write_eq_replaced h
  obtain ⟨hstage, hplace⟩ := replaceFile_eq_ok hreplace
  obtain ⟨outer, last, htargets, hshort, -, hfits, hputs, hworking⟩ := placeFile_eq_ok hplace
  obtain ⟨rfl, -⟩ := eq_of_walk hdenotes (htargets.walk_put hshort hfits hputs hworking)
  obtain ⟨before, hholds⟩ := holds_of_placeFile hextends htargets hfits
  obtain ⟨directory, hparent, hdirectory, -⟩ := hspells.parent
  have habsolute : (store.directoryOf (store.resolve filename)).isAbsolute = true := by
    rw [directoryOf, hparent, Option.getD_some]
    exact hdirectory.absolute
  exact ⟨outer, last, before, rfl,
    placed_of_spells hspells hend (accepted_of_stage habsolute hstage), hholds⟩

theorem isBelow_of_denotes (hbase : store.baseDirectory.Denotes base)
    (hpath : (store.resolve filename).Denotes (base ++ (outer ++ [last]))) :
    IsBelow store.baseDirectory (store.resolve filename) outer last := by
  rw [IsBelow, hbase.components_normalize, hpath.components_normalize, List.map_append,
    List.cons_append]

theorem settles_remove (hbase : store.baseDirectory.Denotes base)
    (hspells : (store.resolve filename).Spells (base ++ (outer ++ [last])))
    (hend : (store.resolve filename).EndsInName) (contents : ByteArray) :
    Settles (store.remove filename) base (base ++ (outer ++ [last])) (some contents) none () := by
  intro disk hholds
  have hfound : disk.tree.lookup (base ++ outer ++ [last]) = some (.file contents) := by
    rw [List.append_assoc]
    exact hholds.found
  have hreaches : disk.Reaches (store.resolve filename) (base ++ outer ++ [last]) := by
    rw [List.append_assoc]
    exact hspells.reaches disk
  obtain ⟨between, hremove, -⟩ := removeFile_file hreaches hend hfound
  obtain ⟨changed, file, bound, kept, hrun, hremoved⟩ := removed (.inl hbase.absolute) hremove
  obtain ⟨hfile, -⟩ :=
    hremoved.bounds.below outer last (isBelow_of_denotes hbase hspells.toDenotes)
  have hplace : file = base ++ (outer ++ [last]) := by
    have hlocated := hremoved.located.symm.trans (locate_file hreaches hend hfound)
    rw [← List.append_assoc]
    exact under_inj (Except.ok.inj hlocated)
  have hbound : bound = base := by
    rw [hplace, List.append_assoc] at hfile
    exact (List.append_cancel_right hfile).symm
  rw [hplace, hbound] at hremoved
  exact ⟨changed, hrun,
    settle_of_clears hremoved.clears hholds.found hremoved.inside hremoved.stopped⟩

/-- A removal that succeeds found the file. -/
theorem spells_of_remove (hdenotes : (store.resolve filename).Denotes key)
    (h : run (store.remove filename) disk = (.ok (), changed)) :
    (store.resolve filename).Spells key ∧ (store.resolve filename).EndsInName ∧
      ∃ contents, disk.tree.lookup key = some (.file contents) := by
  cases hremove : disk.removeFile (store.resolve filename) with
  | error cause =>
    rw [run_remove_error hremove] at h
    cases h
  | ok between =>
    obtain ⟨contents, hread⟩ := readFile_of_removeFile hremove
    obtain ⟨hspells, hend, hfile⟩ := spells_of_readFile hdenotes hread
    exact ⟨hspells, hend, contents, hfile⟩

end Store

end DeclaredSource.Storage
