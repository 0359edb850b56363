import DeclaredSource.Proofs.Storage.LevelPath
import DeclaredSource.Proofs.Storage.StoreRuns
import Mathlib.Data.Set.Defs

/-!
# A directory that mirrors a map

Below a base directory stand exactly the files of a map from names to texts, and exactly the
directories that lead to them, so no directory there is empty. Writing and removing keep this, for
names none of which leads through another, and they leave everything outside of the base directory
as it is. While a removal goes on, the directories that led to the removed file may still be there.
-/

namespace DeclaredSource.Storage

open Storage.Path FileTree Disk

/-- Texts by the names that lead to them, outermost first. -/
abbrev Contents := List String → Option String

namespace Contents

def empty : Contents :=
  fun _ ↦ none

def set (contents : Contents) (key : List String) (text : Option String) : Contents :=
  fun other ↦ if other = key then text else contents other

theorem set_same (contents : Contents) (key : List String) (text : Option String) :
    contents.set key text key = text := by
  rw [set, if_pos rfl]

theorem set_other (contents : Contents) {key other : List String} (h : other ≠ key)
    (text : Option String) : contents.set key text other = contents other := by
  rw [set, if_neg h]

theorem set_eq_self {contents : Contents} {key : List String} {text : Option String}
    (h : contents key = text) : contents.set key text = contents := by
  funext other
  by_cases hsame : other = key
  · rw [hsame, set_same, h]
  · rw [set_other contents hsame]

/-- Something is kept further inwards. -/
def Occupied (contents : Contents) (names : List String) : Prop :=
  ∃ key, contents key ≠ none ∧ names <+: key ∧ names ≠ key

/-- All keys are among the given ones. -/
def Within (contents : Contents) (keys : Set (List String)) : Prop :=
  ∀ key, contents key ≠ none → key ∈ keys

theorem Within.set {contents : Contents} {keys : Set (List String)} (h : contents.Within keys)
    {key : List String} (hkey : key ∈ keys) (text : Option String) :
    (contents.set key text).Within keys := by
  intro other hother
  by_cases hsame : other = key
  · rw [hsame]
    exact hkey
  · rw [set_other contents hsame] at hother
    exact h other hother

end Contents

/-- No key leads through another one. -/
def Apart (keys : Set (List String)) : Prop :=
  ∀ key ∈ keys, ∀ key' ∈ keys, key <+: key' → key = key'

theorem Contents.not_occupied {contents : Contents} {keys : Set (List String)}
    (hapart : Apart keys) (hwithin : contents.Within keys) {key : List String} (hkey : key ∈ keys) :
    ¬ contents.Occupied key := by
  rintro ⟨key', hpresent, hpre, hne⟩
  exact hne (hapart key hkey key' (hwithin key' hpresent) hpre)

/-! ## Mirrors -/

/-- Only what is below the base directory may differ, and that the way to it is there. -/
structure Frames (before : FileTree) (base : List String) (after : FileTree) : Prop where
  way : ∀ outer, outer <+: base →
    after.lookup outer = before.lookup outer ∨ after.lookup outer = some .directory
  outside : ∀ other, ¬ base <+: other → ¬ other <+: base →
    after.lookup other = before.lookup other

/-- Besides the directories that lead to files there are those that lead to the leftover names. -/
structure MirrorsWith (base leftover : List String) (contents : Contents) (tree : FileTree) :
    Prop where
  file : ∀ names, names ≠ [] → ∀ bytes, tree.lookup (base ++ names) = some (.file bytes) ↔
    ∃ text, contents names = some text ∧ text.toUTF8 = bytes
  directory : ∀ names, names ≠ [] → (tree.lookup (base ++ names) = some .directory ↔
    contents.Occupied names ∨ names <+: leftover)

/-- The files below the base directory are those of the map, and the directories below it are those
that lead to them. -/
structure Mirrors (base : List String) (contents : Contents) (tree : FileTree) : Prop where
  file : ∀ names, names ≠ [] → ∀ bytes, tree.lookup (base ++ names) = some (.file bytes) ↔
    ∃ text, contents names = some text ∧ text.toUTF8 = bytes
  directory : ∀ names, names ≠ [] → (tree.lookup (base ++ names) = some .directory ↔
    contents.Occupied names)

namespace Frames

variable {before between after : FileTree} {base : List String}

theorem refl (tree : FileTree) (base : List String) : Frames tree base tree :=
  ⟨fun _ _ ↦ .inl rfl, fun _ _ _ ↦ rfl⟩

theorem trans (h : Frames before base between) (h' : Frames between base after) :
    Frames before base after where
  way := by
    intro outer houter
    rcases h'.way outer houter with hsame | hdirectory
    · rw [hsame]
      exact h.way outer houter
    · exact .inr hdirectory
  outside := by
    intro other hinside hway
    rw [h'.outside other hinside hway, h.outside other hinside hway]

theorem of_puts {names : List String} {entry : Option Entry} (hne : names ≠ [])
    (h : Puts before after (base ++ names) entry) : Frames before base after where
  way := by
    intro outer houter
    refine .inl (h.other ?_)
    rintro rfl
    have hlength := houter.length_le
    rw [List.length_append] at hlength
    exact hne (List.length_eq_zero_iff.1 (by omega))
  outside := by
    intro other hinside _
    refine h.other ?_
    rintro rfl
    exact hinside (List.prefix_append base names)

theorem of_paves {names : List String} (h : Paves before after (base ++ names)) :
    Frames before base after where
  way := by
    intro outer houter
    rw [h, if_pos (houter.trans (List.prefix_append base names))]
    exact .inr rfl
  outside := by
    intro other hinside hway
    rw [h, if_neg]
    intro hpre
    rcases List.prefix_or_prefix_of_prefix hpre (List.prefix_append base names) with hle | hle
    · exact hway hle
    · exact hinside hle

end Frames

section Steps

variable {base outer leftover : List String} {last : String} {contents : Contents}
  {keys : Set (List String)} {before tree between after : FileTree}

theorem MirrorsWith.done (h : MirrorsWith base [] contents tree) : Mirrors base contents tree where
  file := h.file
  directory := by
    intro names hnames
    rw [h.directory names hnames, List.prefix_nil, or_iff_left hnames]

theorem Mirrors.empty (h : ∀ name, tree.lookup (base ++ [name]) = none) :
    Mirrors base Contents.empty tree := by
  have hnone (names : List String) (hnames : names ≠ []) : tree.lookup (base ++ names) = none := by
    obtain ⟨name, rest, rfl⟩ := List.exists_cons_of_ne_nil hnames
    refine lookup_inside_eq_none ?_ (h name)
    exact (List.prefix_append_right_inj base).2 (List.prefix_append [name] rest)
  constructor
  · intro names hnames bytes
    rw [hnone names hnames]
    simp [Contents.empty]
  · intro names hnames
    rw [hnone names hnames]
    simp [Contents.Occupied, Contents.empty]

/-- A way below the base directory either stays on the way to it or goes on from it. -/
theorem way_or_inside {names : List String} (h : names <+: base ++ outer) :
    names <+: base ∨ ∃ inner, inner ≠ [] ∧ inner <+: outer ∧ names = base ++ inner := by
  rcases List.prefix_or_prefix_of_prefix h (List.prefix_append base outer) with hle | hle
  · exact .inl hle
  · obtain ⟨inner, rfl⟩ := hle
    by_cases hinner : inner = []
    · rw [hinner, List.append_nil]
      exact .inl (List.prefix_refl base)
    · exact .inr ⟨inner, hinner, (List.prefix_append_right_inj base).1 h, rfl⟩

theorem prefix_of_concat {names : List String} (h : names <+: outer ++ [last])
    (hne : names ≠ outer ++ [last]) : names <+: outer :=
  (List.prefix_concat_iff.1 h).resolve_left hne

/-- No file is in the way of a key. -/
theorem Mirrors.open_outer (h : Mirrors base contents tree) (hopen : before.Open base)
    (hframes : Frames before base tree) (hapart : Apart keys) (hwithin : contents.Within keys)
    (hkey : outer ++ [last] ∈ keys) : tree.Open (base ++ outer) := by
  intro names hnames bytes hfile
  rcases way_or_inside hnames with hway | ⟨inner, hinner, hpre, rfl⟩
  · rcases hframes.way names hway with hsame | hdirectory
    · exact hopen names hway bytes (hsame ▸ hfile)
    · rw [hdirectory] at hfile
      cases hfile
  · obtain ⟨text, htext, -⟩ := (h.file inner hinner bytes).1 hfile
    have hmem : inner ∈ keys := hwithin inner (by rw [htext]; simp)
    have hsame := hapart inner hmem _ hkey (hpre.trans (List.prefix_append outer [last]))
    rw [hsame] at hpre
    exact not_concat_leads hpre

theorem Mirrors.lookup_key (h : Mirrors base contents tree) (hapart : Apart keys)
    (hwithin : contents.Within keys) (hkey : outer ++ [last] ∈ keys) :
    tree.lookup (base ++ outer ++ [last]) =
      (contents (outer ++ [last])).map fun text ↦ .file text.toUTF8 := by
  have hne : outer ++ [last] ≠ [] := by simp
  rw [List.append_assoc]
  cases hentry : tree.lookup (base ++ (outer ++ [last])) with
  | none =>
    cases htext : contents (outer ++ [last]) with
    | none => rfl
    | some text =>
      rw [(h.file _ hne text.toUTF8).2 ⟨text, htext, rfl⟩] at hentry
      cases hentry
  | some entry =>
    cases entry with
    | directory =>
      exact absurd ((h.directory _ hne).1 hentry) (Contents.not_occupied hapart hwithin hkey)
    | file bytes =>
      obtain ⟨text, htext, rfl⟩ := (h.file _ hne bytes).1 hentry
      rw [htext]
      rfl

theorem Contents.occupied_set {text : String} {names : List String}
    (hne : names ≠ outer ++ [last]) (houter : ¬ names <+: outer) :
    (contents.set (outer ++ [last]) (some text)).Occupied names ↔ contents.Occupied names := by
  constructor
  · rintro ⟨key, hpresent, hpre, hlonger⟩
    have hother : key ≠ outer ++ [last] := by
      rintro rfl
      exact houter (prefix_of_concat hpre hne)
    rw [set_other contents hother] at hpresent
    exact ⟨key, hpresent, hpre, hlonger⟩
  · rintro ⟨key, hpresent, hpre, hlonger⟩
    refine ⟨key, ?_, hpre, hlonger⟩
    by_cases hsame : key = outer ++ [last]
    · rw [hsame, set_same]
      simp
    · rwa [set_other contents hsame]

theorem Mirrors.write (h : Mirrors base contents tree) (hapart : Apart keys)
    (hwithin : contents.Within keys) (hkey : outer ++ [last] ∈ keys) {text : String}
    (hpaves : Paves tree between (base ++ outer))
    (hputs : Puts between after (base ++ outer ++ [last]) (some (.file text.toUTF8))) :
    Mirrors base (contents.set (outer ++ [last]) (some text)) after := by
  have hwithin' := hwithin.set hkey (some text)
  have hlookup (names : List String) : after.lookup (base ++ names) =
      if names = outer ++ [last] then some (.file text.toUTF8)
      else if names <+: outer then some .directory else tree.lookup (base ++ names) := by
    rw [hputs, hpaves, List.append_assoc]
    simp only [List.append_cancel_left_eq, List.prefix_append_right_inj]
  constructor
  · intro names hnames bytes
    rw [hlookup]
    by_cases hsame : names = outer ++ [last]
    · rw [if_pos hsame, hsame, Contents.set_same]
      simp
    · rw [if_neg hsame, Contents.set_other contents hsame]
      by_cases houter : names <+: outer
      · -- A file there would be a key that leads to the written one.
        have hnone : contents names = none := by
          by_contra hpresent
          have hmem := hwithin names hpresent
          exact hsame (hapart names hmem _ hkey (houter.trans (List.prefix_append outer [last])))
        rw [if_pos houter, hnone]
        simp
      · rw [if_neg houter]
        exact h.file names hnames bytes
  · intro names hnames
    rw [hlookup]
    by_cases hsame : names = outer ++ [last]
    · have hnot := Contents.not_occupied hapart hwithin' hkey
      rw [if_pos hsame, hsame]
      simpa using hnot
    · rw [if_neg hsame]
      by_cases houter : names <+: outer
      · have hoccupied : (contents.set (outer ++ [last]) (some text)).Occupied names := by
          refine ⟨outer ++ [last], ?_, houter.trans (List.prefix_append outer [last]), hsame⟩
          rw [Contents.set_same]
          simp
        rw [if_pos houter]
        exact iff_of_true rfl hoccupied
      · rw [if_neg houter, h.directory names hnames, Contents.occupied_set hsame houter]

/-- Once the file is gone, the directories that led to it are left over. -/
theorem Mirrors.remove (h : Mirrors base contents tree) (hapart : Apart keys)
    (hwithin : contents.Within keys) (hkey : outer ++ [last] ∈ keys)
    (hpresent : contents (outer ++ [last]) ≠ none)
    (hputs : Puts tree after (base ++ outer ++ [last]) none) :
    MirrorsWith base outer (contents.set (outer ++ [last]) none) after := by
  have hwithin' := hwithin.set hkey none
  have hlookup (names : List String) : after.lookup (base ++ names) =
      if names = outer ++ [last] then none else tree.lookup (base ++ names) := by
    rw [hputs, List.append_assoc]
    simp only [List.append_cancel_left_eq]
  constructor
  · intro names hnames bytes
    rw [hlookup]
    by_cases hsame : names = outer ++ [last]
    · rw [if_pos hsame, hsame, Contents.set_same]
      simp
    · rw [if_neg hsame, Contents.set_other contents hsame]
      exact h.file names hnames bytes
  · intro names hnames
    rw [hlookup]
    by_cases hsame : names = outer ++ [last]
    · have hnot := Contents.not_occupied hapart hwithin' hkey
      have hlonger : ¬ outer ++ [last] <+: outer := not_concat_leads
      rw [if_pos hsame, hsame]
      simp [hnot, hlonger]
    · rw [if_neg hsame, h.directory names hnames]
      constructor
      · rintro ⟨key, hfound, hpre, hlonger⟩
        by_cases hremoved : key = outer ++ [last]
        · exact .inr (prefix_of_concat (hremoved ▸ hpre) hsame)
        · exact .inl ⟨key, by rwa [Contents.set_other contents hremoved], hpre, hlonger⟩
      · rintro (⟨key, hfound, hpre, hlonger⟩ | houter)
        · have hother : key ≠ outer ++ [last] := by
            rintro rfl
            exact hfound (Contents.set_same contents (outer ++ [last]) none)
          rw [Contents.set_other contents hother] at hfound
          exact ⟨key, hfound, hpre, hlonger⟩
        · exact ⟨_, hpresent, houter.trans (List.prefix_append outer [last]), hsame⟩

/-- A leftover directory that something is in leads to a file, and so does every one on the way. -/
theorem MirrorsWith.kept (h : MirrorsWith base (outer ++ [last]) contents tree) {inner : String}
    (hinner : tree.lookup (base ++ (outer ++ [last]) ++ [inner]) ≠ none) :
    Mirrors base contents tree := by
  have hoccupied : ∃ key, contents key ≠ none ∧ outer ++ [last] ++ [inner] <+: key := by
    have hne : outer ++ [last] ++ [inner] ≠ [] := by simp
    rw [List.append_assoc] at hinner
    cases hentry : tree.lookup (base ++ (outer ++ [last] ++ [inner])) with
    | none => exact absurd hentry hinner
    | some entry =>
      cases entry with
      | file bytes =>
        obtain ⟨text, htext, -⟩ := (h.file _ hne bytes).1 hentry
        exact ⟨_, by rw [htext]; simp, List.prefix_refl _⟩
      | directory =>
        rcases (h.directory _ hne).1 hentry with ⟨key, hpresent, hpre, -⟩ | hpre
        · exact ⟨key, hpresent, hpre⟩
        · exact absurd hpre not_concat_leads
  obtain ⟨key, hpresent, hpre⟩ := hoccupied
  refine ⟨h.file, ?_⟩
  intro names hnames
  rw [h.directory names hnames]
  refine or_iff_left_of_imp fun hleftover ↦ ⟨key, hpresent, ?_, ?_⟩
  · exact hleftover.trans ((List.prefix_append _ [inner]).trans hpre)
  · rintro rfl
    exact not_concat_leads (hpre.trans hleftover)

/-- A leftover directory that nothing is in leads to no file. -/
theorem MirrorsWith.gone (h : MirrorsWith base (outer ++ [last]) contents tree)
    (halone : ∀ inner, tree.lookup (base ++ (outer ++ [last]) ++ [inner]) = none)
    (hputs : Puts tree after (base ++ (outer ++ [last])) none) :
    MirrorsWith base outer contents after := by
  have hne : outer ++ [last] ≠ [] := by simp
  have hdirectory : tree.lookup (base ++ (outer ++ [last])) = some .directory :=
    (h.directory _ hne).2 (.inr (List.prefix_refl _))
  have hlookup (names : List String) : after.lookup (base ++ names) =
      if names = outer ++ [last] then none else tree.lookup (base ++ names) := by
    rw [hputs]
    simp only [List.append_cancel_left_eq]
  constructor
  · intro names hnames bytes
    rw [hlookup]
    by_cases hsame : names = outer ++ [last]
    · rw [if_pos hsame, hsame, ← h.file _ hne, hdirectory]
      simp
    · rw [if_neg hsame]
      exact h.file names hnames bytes
  · intro names hnames
    rw [hlookup]
    by_cases hsame : names = outer ++ [last]
    · have hnot : ¬ contents.Occupied (outer ++ [last]) := by
        rintro ⟨key, hpresent, ⟨rest, rfl⟩, hlonger⟩
        have hrest : rest ≠ [] := by
          rintro rfl
          exact hlonger (List.append_nil _).symm
        obtain ⟨inner, others, rfl⟩ := List.exists_cons_of_ne_nil hrest
        obtain ⟨text, htext⟩ := Option.ne_none_iff_exists'.1 hpresent
        have hfile := (h.file _ (by simp) text.toUTF8).2 ⟨text, htext, rfl⟩
        have hnone : tree.lookup (base ++ (outer ++ [last] ++ inner :: others)) = none := by
          refine lookup_inside_eq_none ?_ (halone inner)
          rw [List.append_assoc base, List.prefix_append_right_inj, List.prefix_append_right_inj]
          exact List.prefix_append [inner] others
        rw [hnone] at hfile
        cases hfile
      have hlonger : ¬ outer ++ [last] <+: outer := not_concat_leads
      rw [if_pos hsame, hsame]
      simp [hnot, hlonger]
    · rw [if_neg hsame, h.directory names hnames, List.prefix_concat_iff, or_iff_right hsame]

/-- The walk outwards ends with no leftover directory. -/
theorem removeEmpty_run {store : Store} (hbase : store.Based base) {path : Path}
    {key : List String} (hpath : path.Spells (base ++ key)) (hleftover : leftover <+: key)
    {disk : Disk} (h : MirrorsWith base leftover contents disk.tree) :
    ∃ changed : Disk,
      run (Store.removeEmpty store.baseDirectory.normalize leftover.reverse) disk =
        (.ok (), changed) ∧
      Mirrors base contents changed.tree ∧ Frames disk.tree base changed.tree := by
  induction leftover using List.reverseRecOn generalizing disk with
  | nil => exact ⟨disk, rfl, h.done, .refl disk.tree base⟩
  | append_singleton outer last ih =>
    have hne : outer ++ [last] ≠ [] := by simp
    obtain ⟨hspells, hend⟩ :=
      Spells.between (denotes_of_components hbase.components) hpath hleftover hne
    have hdirectory : disk.tree.lookup (base ++ (outer ++ [last])) = some .directory :=
      (h.directory _ hne).2 (.inr (List.prefix_refl _))
    by_cases halone : ∀ inner, disk.tree.lookup (base ++ (outer ++ [last]) ++ [inner]) = none
    · have hspells' := hspells
      rw [← List.append_assoc] at hspells'
      obtain ⟨between, hputs, -, hrun⟩ := Store.removeEmpty_gone (hspells'.reaches disk) hend
        (by rwa [List.append_assoc]) (by rwa [List.append_assoc base])
      rw [List.append_assoc] at hputs
      obtain ⟨changed, hloop, hmirrors, hframes⟩ :=
        ih ((List.prefix_append outer [last]).trans hleftover) (h.gone halone hputs)
      refine ⟨changed, ?_, hmirrors, (Frames.of_puts hne hputs).trans hframes⟩
      calc
        run (Store.removeEmpty store.baseDirectory.normalize (outer ++ [last]).reverse) disk =
            run (Store.removeEmpty store.baseDirectory.normalize outer.reverse) between := hrun
        _ = (.ok (), changed) := hloop
    · rw [not_forall] at halone
      obtain ⟨inner, hinner⟩ := halone
      exact ⟨disk, Store.removeEmpty_kept (hspells.reaches disk) hdirectory hinner, h.kept hinner,
        .refl disk.tree base⟩

end Steps

/-! ## A store on a mirror -/

/-- A base directory that can be reached, and keys below it that can all be files. -/
structure Setting (store : Store) (base : List String) (before : FileTree)
    (keys : Set (List String)) : Prop where
  based : store.Based base
  clear : before.Open base
  apart : Apart keys

/-- The disk keeps the map below the base directory, and all else is as it was before. -/
structure Tracks (before : FileTree) (base : List String) (keys : Set (List String))
    (contents : Contents) (disk : Disk) : Prop where
  mirrors : Mirrors base contents disk.tree
  frames : Frames before base disk.tree
  within : contents.Within keys

section Tracking

variable {store : Store} {base key : List String} {before : FileTree} {keys : Set (List String)}
  {contents : Contents} {disk : Disk} {filename : String}

/-- The names of a key and how the store places it, with what the mirror says of it. -/
theorem Tracks.placed (h : Tracks before base keys contents disk)
    (hsetting : Setting store base before keys) (hadmits : store.Admits filename key)
    (hkey : key ∈ keys) : ∃ outer last, key = outer ++ [last] ∧
      store.Placed filename (base ++ outer) last ∧ disk.tree.Open (base ++ outer) ∧
      disk.tree.lookup (base ++ outer ++ [last]) =
        (contents key).map fun text ↦ .file text.toUTF8 := by
  obtain ⟨outer, last, rfl⟩ := hadmits.exists_concat
  exact ⟨outer, last, rfl, hadmits.placed hsetting.based,
    h.mirrors.open_outer hsetting.clear h.frames hsetting.apart h.within hkey,
    h.mirrors.lookup_key hsetting.apart h.within hkey⟩

theorem Tracks.write (h : Tracks before base keys contents disk)
    (hsetting : Setting store base before keys) (hadmits : store.Admits filename key)
    (hkey : key ∈ keys) (text : String) :
    ∃ changed : Disk, run (store.write filename text) disk =
      (.ok (store.resolve filename), changed) ∧
      Tracks before base keys (contents.set key (some text)) changed := by
  obtain ⟨outer, last, rfl, hplaced, hopen, hlookup⟩ := h.placed hsetting hadmits hkey
  have hfits : disk.tree.lookup (base ++ outer ++ [last]) ≠ some .directory := by
    rw [hlookup]
    cases contents (outer ++ [last]) <;> simp
  obtain ⟨between, changed, hrun, hpaves, hputs⟩ := Store.write_run hplaced hopen hfits text
  refine ⟨changed, hrun, ?_, ?_, h.within.set hkey (some text)⟩
  · exact h.mirrors.write hsetting.apart h.within hkey hpaves hputs
  · have hbetween := h.frames.trans (Frames.of_paves hpaves)
    rw [List.append_assoc] at hputs
    exact hbetween.trans (Frames.of_puts (by simp) hputs)

theorem Tracks.read (h : Tracks before base keys contents disk)
    (hsetting : Setting store base before keys) (hadmits : store.Admits filename key)
    (hkey : key ∈ keys) :
    run (store.read filename) disk =
      (match contents key with
        | some text => .ok text
        | none => .error ⟨.read, store.resolve filename, .notFound⟩, disk) := by
  obtain ⟨outer, last, rfl, hplaced, hopen, hlookup⟩ := h.placed hsetting hadmits hkey
  cases htext : contents (outer ++ [last]) with
  | some text =>
    rw [htext] at hlookup
    exact Store.read_file hplaced hlookup
  | none =>
    rw [htext] at hlookup
    exact Store.read_missing hplaced hopen hlookup

theorem Tracks.readIfPresent (h : Tracks before base keys contents disk)
    (hsetting : Setting store base before keys) (hadmits : store.Admits filename key)
    (hkey : key ∈ keys) :
    run (store.readIfPresent filename) disk = (.ok (contents key), disk) := by
  obtain ⟨outer, last, rfl, hplaced, hopen, hlookup⟩ := h.placed hsetting hadmits hkey
  cases htext : contents (outer ++ [last]) with
  | some text =>
    rw [htext] at hlookup
    exact Store.readIfPresent_file hplaced hlookup
  | none =>
    rw [htext] at hlookup
    exact Store.readIfPresent_missing hplaced hopen hlookup

theorem Tracks.remove_missing (h : Tracks before base keys contents disk)
    (hsetting : Setting store base before keys) (hadmits : store.Admits filename key)
    (hkey : key ∈ keys) (hnone : contents key = none) :
    run (store.remove filename) disk =
      (.error ⟨.remove, store.resolve filename, .notFound⟩, disk) := by
  obtain ⟨outer, last, rfl, hplaced, hopen, hlookup⟩ := h.placed hsetting hadmits hkey
  rw [hnone] at hlookup
  exact Store.remove_missing hplaced hopen hlookup

theorem Tracks.remove_file (h : Tracks before base keys contents disk)
    (hsetting : Setting store base before keys) (hadmits : store.Admits filename key)
    (hkey : key ∈ keys) {text : String} (htext : contents key = some text) :
    ∃ changed : Disk, run (store.remove filename) disk = (.ok (), changed) ∧
      Tracks before base keys (contents.set key none) changed := by
  obtain ⟨outer, last, rfl, hplaced, hopen, hlookup⟩ := h.placed hsetting hadmits hkey
  rw [htext] at hlookup
  obtain ⟨between, hputs, hrun⟩ := Store.remove_file hsetting.based hplaced hlookup
  have hleft := h.mirrors.remove hsetting.apart h.within hkey (by rw [htext]; simp) hputs
  have hpath := hplaced.path
  rw [List.append_assoc] at hpath hputs
  obtain ⟨changed, hloop, hmirrors, hframes⟩ :=
    removeEmpty_run hsetting.based hpath (List.prefix_append outer [last]) hleft
  refine ⟨changed, ?_, hmirrors, ?_, h.within.set hkey none⟩
  · calc
      run (store.remove filename) disk =
          run (Store.removeEmpty store.baseDirectory.normalize outer.reverse) between := hrun
      _ = (.ok (), changed) := hloop
  · exact (h.frames.trans (Frames.of_puts (by simp) hputs)).trans hframes

end Tracking

end DeclaredSource.Storage
