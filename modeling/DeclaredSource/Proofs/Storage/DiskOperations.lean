import DeclaredSource.Proofs.Storage.Spelling

/-!
# What the operations on a disk do

For a path that spells names, every operation on the disk is given by what stands under those names,
looked up outermost first: when it succeeds, what it changes, and for which cause it fails. What is
said of other names is said of all of them, so nothing else about the disk is needed later.
-/

namespace DeclaredSource.Storage

open Storage.Path

namespace FileTree

/-- What stands under the names, outermost first. -/
def lookup (tree : FileTree) (names : List String) : Option Entry :=
  tree.find names.reverse

@[simp]
theorem lookup_nil (tree : FileTree) : tree.lookup [] = some .directory :=
  tree.find_root

theorem find_cons (tree : FileTree) (names : List String) (name : String) :
    tree.find (name :: names.reverse) = tree.lookup (names ++ [name]) := by
  rw [lookup, List.reverse_append]
  rfl

theorem lookup_parent {tree : FileTree} {names : List String} {name : String}
    (h : tree.lookup (names ++ [name]) ≠ none) : tree.lookup names = some .directory :=
  find_parent (by rwa [find_cons])

theorem not_concat_leads {outer : List String} {last : String} : ¬ outer ++ [last] <+: outer := by
  intro hpre
  have hle := hpre.length_le
  rw [List.length_append, List.length_singleton] at hle
  omega

/-- Whatever is found is found inside directories. -/
theorem lookup_outer {tree : FileTree} {outer names : List String} (hpre : outer <+: names)
    (hne : outer ≠ names) (h : tree.lookup names ≠ none) :
    tree.lookup outer = some .directory := by
  induction names using List.reverseRecOn with
  | nil => exact absurd (List.prefix_nil.1 hpre) hne
  | append_singleton names name ih =>
    have hparent := lookup_parent h
    rcases List.prefix_concat_iff.1 hpre with heq | hinner
    · exact absurd heq hne
    · by_cases hsame : outer = names
      · rw [hsame, hparent]
      · exact ih hinner hsame (by rw [hparent]; simp)

theorem lookup_outer_directory {tree : FileTree} {outer names : List String}
    (hpre : outer <+: names) (h : tree.lookup names = some .directory) :
    tree.lookup outer = some .directory := by
  by_cases hsame : outer = names
  · rw [hsame, h]
  · exact lookup_outer hpre hsame (by rw [h]; simp)

/-- No file stands under the names or on the way to them. -/
def Open (tree : FileTree) (names : List String) : Prop :=
  ∀ outer, outer <+: names → ∀ contents, tree.lookup outer ≠ some (.file contents)

theorem Open.outer {tree : FileTree} {outer names : List String} (h : tree.Open names)
    (hpre : outer <+: names) : tree.Open outer :=
  fun _ hinner ↦ h _ (hinner.trans hpre)

theorem Open.eq_directory {tree : FileTree} {names : List String} (h : tree.Open names)
    (hfound : tree.lookup names ≠ none) : tree.lookup names = some .directory := by
  cases hentry : tree.lookup names with
  | none => exact absurd hentry hfound
  | some entry =>
    cases entry with
    | directory => rfl
    | file contents => exact absurd hentry (h names (List.prefix_refl names) contents)

theorem Open.concat {tree : FileTree} {names : List String} (h : tree.Open names) {name : String}
    (hnone : tree.lookup (names ++ [name]) = none) : tree.Open (names ++ [name]) := by
  intro outer hpre contents hfile
  rcases List.prefix_concat_iff.1 hpre with rfl | hinner
  · rw [hnone] at hfile
    cases hfile
  · exact h outer hinner contents hfile

/-- Nothing stands further inwards than a name under which nothing stands. -/
theorem lookup_inside_eq_none {tree : FileTree} {outer names : List String}
    (hpre : outer <+: names) (h : tree.lookup outer = none) : tree.lookup names = none := by
  by_cases hsame : outer = names
  · rw [← hsame, h]
  · cases hnone : tree.lookup names with
    | none => rfl
    | some entry =>
      have hfound : tree.lookup names ≠ none := by rw [hnone]; simp
      rw [lookup_outer hpre hsame hfound] at h
      cases h

/-- What names lead to when all of them are directories, except perhaps the last. -/
def under (names : List String) : Standpoint :=
  ⟨names.reverse, 0⟩

theorem under_inj {names names' : List String} (h : under names = under names') :
    names = names' :=
  List.reverse_injective (congrArg Standpoint.place h)

theorem isFile_under_eq_false {tree : FileTree} {names : List String}
    (h : tree.lookup names = some .directory) : tree.isFile (under names) = false := by
  have hentry : tree.entryAt (under names) = some .directory := h
  rw [isFile, hentry]

theorem enter_here {tree : FileTree} {names : List String}
    (h : tree.lookup names = some .directory) :
    tree.enter (under names) "." = .ok (under names) := by
  rw [enter, isFile_under_eq_false h]
  rfl

theorem enter_name {tree : FileTree} {names : List String}
    (h : tree.lookup names = some .directory) {name : String} (named : isIdle name = false)
    (level : name ≠ "..") (short : name.utf8ByteSize ≤ longestName) :
    tree.enter (under names) name =
      if tree.lookup (names ++ [name]) = none then .error .notFound
      else .ok (under (names ++ [name])) := by
  have hpoint : name ≠ "." := by
    rintro rfl
    cases named
  have hunder : under (names ++ [name]) = ⟨name :: names.reverse, 0⟩ := by
    rw [under, List.reverse_append]
    rfl
  rw [enter, isFile_under_eq_false h, if_neg (by decide), if_neg hpoint, if_neg level,
    if_neg (by simp [under]), if_neg (Nat.not_lt.2 short), hunder, ← find_cons]
  rfl

theorem walk_append (tree : FileTree) (standpoint : Standpoint) (pieces pieces' : List String) :
    tree.walk standpoint (pieces ++ pieces') =
      (tree.walk standpoint pieces).bind (tree.walk · pieces') := by
  induction pieces generalizing standpoint with
  | nil => rfl
  | cons piece pieces ih =>
    rw [List.cons_append, walk, walk]
    cases tree.enter standpoint piece with
    | error cause => rfl
    | ok next => exact ih next

/-- Pieces that a walk goes through without climbing or stopping at their length. -/
structure Walkable (pieces : List String) : Prop where
  present : "" ∉ pieces
  level : ".." ∉ pieces
  short : ∀ name ∈ proper pieces, name.utf8ByteSize ≤ longestName

theorem Walkable.of_sublist {pieces pieces' : List String} (h : Walkable pieces')
    (hsub : pieces.Sublist pieces') : Walkable pieces where
  present := fun hmem ↦ h.present (hsub.subset hmem)
  level := fun hmem ↦ h.level (hsub.subset hmem)
  short := fun name hname ↦ h.short name ((hsub.filter _).subset hname)

theorem Walkable.eq_point {piece : String} {pieces : List String}
    (h : Walkable (piece :: pieces)) (hidle : isIdle piece = true) : piece = "." := by
  have hne : piece ≠ "" := by
    rintro rfl
    exact h.present List.mem_cons_self
  simpa [isIdle, hne] using hidle

theorem Walkable.enter {piece : String} {pieces : List String} (h : Walkable (piece :: pieces))
    (named : isIdle piece = false) {tree : FileTree} {names : List String}
    (hdirectory : tree.lookup names = some .directory) :
    tree.enter (under names) piece =
      if tree.lookup (names ++ [piece]) = none then .error .notFound
      else .ok (under (names ++ [piece])) := by
  refine enter_name hdirectory named ?_ (h.short piece ?_)
  · rintro rfl
    exact h.level List.mem_cons_self
  · rw [proper_cons_of_name named]
    exact List.mem_cons_self

theorem walk_of_directory {tree : FileTree} {pieces : List String} (h : Walkable pieces)
    {outer : List String} (hfound : tree.lookup (outer ++ proper pieces) = some .directory) :
    tree.walk (under outer) pieces = .ok (under (outer ++ proper pieces)) := by
  induction pieces generalizing outer with
  | nil => rw [proper_nil, List.append_nil, walk]
  | cons piece pieces ih =>
    have houter := lookup_outer_directory (List.prefix_append outer _) hfound
    have hrest := h.of_sublist (List.sublist_cons_self piece pieces)
    cases hidle : isIdle piece with
    | true =>
      rw [proper_cons_of_idle hidle] at hfound ⊢
      rw [walk, h.eq_point hidle, enter_here houter]
      exact ih hrest hfound
    | false =>
      rw [proper_cons_of_name hidle, List.append_cons] at hfound ⊢
      have hnext := lookup_outer_directory (List.prefix_append (outer ++ [piece]) _) hfound
      rw [walk, h.enter hidle houter, if_neg (by rw [hnext]; simp)]
      exact ih hrest hfound

theorem walk_of_missing {tree : FileTree} {pieces : List String} (h : Walkable pieces)
    {outer : List String} (houter : tree.lookup outer = some .directory)
    (hopen : tree.Open (outer ++ proper pieces))
    (hmissing : tree.lookup (outer ++ proper pieces) = none) :
    tree.walk (under outer) pieces = .error .notFound := by
  induction pieces generalizing outer with
  | nil =>
    rw [proper_nil, List.append_nil, houter] at hmissing
    cases hmissing
  | cons piece pieces ih =>
    have hrest := h.of_sublist (List.sublist_cons_self piece pieces)
    cases hidle : isIdle piece with
    | true =>
      rw [proper_cons_of_idle hidle] at hopen hmissing
      rw [walk, h.eq_point hidle, enter_here houter]
      exact ih hrest houter hopen hmissing
    | false =>
      rw [proper_cons_of_name hidle, List.append_cons] at hopen hmissing
      rw [walk, h.enter hidle houter]
      by_cases hnone : tree.lookup (outer ++ [piece]) = none
      · rw [if_pos hnone]
      · have hnext := (hopen.outer (List.prefix_append (outer ++ [piece]) _)).eq_directory hnone
        rw [if_neg hnone]
        exact ih hrest hnext hopen hmissing

/-! ## Changes -/

/-- One tree comes from another by what stands under the names, and by nothing else. -/
def Puts (before after : FileTree) (names : List String) (entry : Option Entry) : Prop :=
  ∀ other, after.lookup other = if other = names then entry else before.lookup other

theorem Puts.same {before after : FileTree} {names : List String} {entry : Option Entry}
    (h : Puts before after names entry) : after.lookup names = entry := by
  rw [h, if_pos rfl]

theorem Puts.other {before after : FileTree} {names : List String} {entry : Option Entry}
    (h : Puts before after names entry) {other : List String} (hne : other ≠ names) :
    after.lookup other = before.lookup other := by
  rw [h, if_neg hne]

theorem isChildless_iff {tree : FileTree} {names : List String} :
    tree.isChildless names.reverse = true ↔ ∀ name, tree.lookup (names ++ [name]) = none := by
  constructor
  · intro h name
    rw [← find_cons]
    exact find_eq_none_of_isChildless h name
  · intro h
    rw [isChildless, Entries.childless, List.all_eq_true]
    intro item hitem
    obtain ⟨key, entry⟩ := item
    cases key with
    | nil => rfl
    | cons name outer =>
      rw [decide_eq_true_eq]
      rintro rfl
      have hnone := h name
      rw [← find_cons, find, Entries.find, if_neg (by simp)] at hnone
      exact Entries.get?_ne_none_of_mem hitem hnone

end FileTree

theorem Path.proper_names (path : Path) : Path.proper path.names = Path.proper path.pieces := by
  rw [Path.proper, Path.names, List.filter_filter]
  apply List.filter_congr
  intro piece _
  by_cases hempty : piece = ""
  · rw [hempty]
    rfl
  · simp [hempty]

theorem Path.Spells.walkable {path : Path} {names : List String} (h : path.Spells names) :
    FileTree.Walkable path.names ∧ Path.proper path.names = names := by
  have hproper : Path.proper path.names = names := path.proper_names.trans h.proper
  refine ⟨⟨?_, ?_, ?_⟩, hproper⟩
  · simp [Path.names]
  · exact fun hup ↦ h.level (List.mem_of_mem_filter hup)
  · rw [hproper]
    exact h.short

theorem Path.names_of_concat {path : Path} {init : List String} {last : String}
    (hpieces : path.pieces = init ++ [last]) (present : last ≠ "") :
    path.names = init.filter (· ≠ "") ++ [last] := by
  rw [Path.names, hpieces, List.filter_append, List.filter_cons_of_pos (by simpa using present),
    List.filter_nil]

theorem Path.EndsInName.exists_names {path : Path} (hend : path.EndsInName) :
    ∃ init last, path.names = init ++ [last] ∧ isIdle last = false := by
  obtain ⟨init, last, hpieces, hlast⟩ := hend
  have hne : last ≠ "" := by
    rintro rfl
    cases hlast
  exact ⟨init.filter (· ≠ ""), last, names_of_concat hpieces hne, hlast⟩

namespace Disk

open FileTree

variable {disk : Disk} {path : Path} {names : List String} {name : String}

theorem start_eq (h : path.isAbsolute = true) : disk.start path = under [] := by
  rw [start, if_pos h]
  rfl

/-- From where the path starts it goes through the names; it does not climb and is accepted. -/
structure Reaches (disk : Disk) (path : Path) (names : List String) : Prop where
  accepted : refusal? path = none
  walkable : Walkable path.names
  start : ∃ outer, disk.start path = under outer ∧ outer ++ proper path.names = names

theorem lookup_start {outer : List String} (h : disk.start path = under outer) :
    disk.tree.lookup outer = some .directory := by
  rw [start] at h
  split at h
  · have hplace : [] = outer.reverse := congrArg Standpoint.place h
    rw [lookup, ← hplace, find_root]
  · have hstands := disk.stands
    rwa [h] at hstands

/-- What is walked through before the last name. -/
theorem Reaches.split (h : disk.Reaches path (names ++ [name])) (hend : path.EndsInName) :
    ∃ outer init, disk.start path = under outer ∧ path.names = init ++ [name] ∧
      outer ++ proper init = names ∧ Walkable init ∧ isIdle name = false := by
  obtain ⟨outer, hstart, hnames⟩ := h.start
  obtain ⟨init, last, hpath, hlast⟩ := hend.exists_names
  rw [hpath, proper_append, proper_cons_of_name hlast, proper_nil, ← List.append_assoc] at hnames
  obtain ⟨hinit, hname⟩ := List.append_inj' hnames rfl
  rw [List.cons.injEq] at hname
  refine ⟨outer, init, hstart, by rw [hpath, hname.1], hinit, ?_, hname.1 ▸ hlast⟩
  exact h.walkable.of_sublist (hpath ▸ List.sublist_append_left init [last])

/-- The last name is one that an entry can have. -/
theorem Reaches.entry (h : disk.Reaches path (names ++ [name])) (hend : path.EndsInName) :
    isIdle name = false ∧ name ≠ ".." ∧ name.utf8ByteSize ≤ longestName := by
  obtain ⟨outer, init, -, hnames, -, -, hidle⟩ := h.split hend
  refine ⟨hidle, ?_, h.walkable.short name ?_⟩
  · rintro rfl
    exact h.walkable.level (by rw [hnames]; simp)
  · rw [hnames, proper_append, proper_cons_of_name hidle, proper_nil]
    simp

end Disk

/-- What spells names goes through them from the root of every disk. -/
theorem Path.Spells.reaches {path : Path} {names : List String} (h : path.Spells names)
    (disk : Disk) : disk.Reaches path names where
  accepted := h.accepted
  walkable := h.walkable.1
  start := ⟨[], Disk.start_eq h.absolute, h.walkable.2⟩

namespace Disk

open FileTree

variable {disk : Disk} {path : Path} {names : List String} {name : String}

/-! ## Where paths lead -/

theorem locate_directory (h : disk.Reaches path names)
    (hfound : disk.tree.lookup names = some .directory) : disk.locate path = .ok (under names) := by
  obtain ⟨outer, hstart, rfl⟩ := h.start
  rw [locate, h.accepted, hstart]
  dsimp only
  rw [walk_of_directory h.walkable hfound]
  dsimp only
  rw [isFile_under_eq_false hfound, Bool.and_false, if_neg (by decide)]

theorem locate_missing (h : disk.Reaches path names) (hopen : disk.tree.Open names)
    (hmissing : disk.tree.lookup names = none) : disk.locate path = .error .notFound := by
  obtain ⟨outer, hstart, rfl⟩ := h.start
  rw [locate, h.accepted, hstart]
  dsimp only
  rw [walk_of_missing h.walkable (lookup_start hstart) hopen hmissing]

theorem locate_file (h : disk.Reaches path (names ++ [name])) (hend : path.EndsInName)
    {contents : ByteArray} (hfound : disk.tree.lookup (names ++ [name]) = some (.file contents)) :
    disk.locate path = .ok (under (names ++ [name])) := by
  have hpresent : disk.tree.lookup (names ++ [name]) ≠ none := by rw [hfound]; simp
  have hparent := lookup_parent hpresent
  obtain ⟨hidle, hup, hshort⟩ := h.entry hend
  have henter := enter_name hparent hidle hup hshort
  obtain ⟨outer, init, hstart, hnames, rfl, hwalkable, -⟩ := h.split hend
  have hwalk : disk.tree.walk (under outer) path.names =
      .ok (under (outer ++ proper init ++ [name])) := by
    calc
      disk.tree.walk (under outer) path.names =
          (disk.tree.walk (under outer) init).bind (disk.tree.walk · [name]) := by
        rw [hnames, walk_append]
      _ = disk.tree.walk (under (outer ++ proper init)) [name] := by
        rw [walk_of_directory hwalkable hparent]
        rfl
      _ = .ok (under (outer ++ proper init ++ [name])) := by
        rw [walk, henter, if_neg hpresent]
        rfl
  rw [locate, h.accepted, hstart]
  dsimp only
  rw [hwalk]
  dsimp only
  rw [hend.endsOpen_eq_false, Bool.false_and, if_neg (by decide)]

theorem target_directory (h : disk.Reaches path (names ++ [name])) (hend : path.EndsInName)
    (hparent : disk.tree.lookup names = some .directory) :
    disk.target path = .ok (some (names.reverse, name)) := by
  obtain ⟨hidle, hup, -⟩ := h.entry hend
  have hpoint : name ≠ "." := by
    rintro rfl
    cases hidle
  obtain ⟨outer, init, hstart, hnames, rfl, hwalkable, -⟩ := h.split hend
  rw [target, h.accepted, hstart, hnames, List.getLast?_concat, List.dropLast_concat]
  dsimp only
  rw [walk_of_directory hwalkable hparent]
  dsimp only
  rw [isFile_under_eq_false hparent, if_neg (by decide), if_neg (not_or.2 ⟨hpoint, hup⟩),
    if_neg (by simp [under])]
  rfl

theorem target_missing (h : disk.Reaches path (names ++ [name])) (hend : path.EndsInName)
    (hopen : disk.tree.Open names) (hmissing : disk.tree.lookup names = none) :
    disk.target path = .error .notFound := by
  obtain ⟨outer, init, hstart, hnames, rfl, hwalkable, -⟩ := h.split hend
  rw [target, h.accepted, hstart, hnames, List.getLast?_concat, List.dropLast_concat]
  dsimp only
  rw [walk_of_missing hwalkable (lookup_start hstart) hopen hmissing]

theorem readFile_directory (h : disk.Reaches path names)
    (hfound : disk.tree.lookup names = some .directory) :
    disk.readFile path = .error .isADirectory := by
  have hentry : disk.tree.entryAt (under names) = some .directory := hfound
  rw [readFile, locate_directory h hfound]
  dsimp only
  rw [hentry]

theorem readFile_missing (h : disk.Reaches path names) (hopen : disk.tree.Open names)
    (hmissing : disk.tree.lookup names = none) : disk.readFile path = .error .notFound := by
  rw [readFile, locate_missing h hopen hmissing]

theorem readFile_file (h : disk.Reaches path (names ++ [name])) (hend : path.EndsInName)
    {contents : ByteArray} (hfound : disk.tree.lookup (names ++ [name]) = some (.file contents)) :
    disk.readFile path = .ok contents := by
  have hentry : disk.tree.entryAt (under (names ++ [name])) = some (.file contents) := hfound
  rw [readFile, locate_file h hend hfound]
  dsimp only
  rw [hentry]

theorem put_of_directory (hparent : disk.tree.lookup names = some .directory)
    (hfits : disk.tree.lookup (names ++ [name]) ≠ some .directory) (entry : Entry) :
    ∃ changed, disk.put names.reverse name entry = .ok changed ∧
      Puts disk.tree changed.tree (names ++ [name]) (some entry) := by
  have hparent' : disk.tree.find names.reverse = some .directory := hparent
  rw [put, dif_neg (by rwa [find_cons]), dif_pos hparent']
  refine ⟨_, rfl, fun other ↦ ?_⟩
  rw [lookup, find_insert]
  simp only [List.reverse_eq_cons_iff, List.reverse_reverse]
  rfl

theorem makeDirectory_new (h : disk.Reaches path (names ++ [name])) (hend : path.EndsInName)
    (hparent : disk.tree.lookup names = some .directory)
    (hmissing : disk.tree.lookup (names ++ [name]) = none) :
    ∃ changed, disk.makeDirectory path = .ok changed ∧
      Puts disk.tree changed.tree (names ++ [name]) (some .directory) := by
  rw [makeDirectory, target_directory h hend hparent]
  dsimp only
  rw [if_neg (Nat.not_lt.2 (h.entry hend).2.2), find_cons, if_neg (by simp [hmissing])]
  exact put_of_directory hparent (by simp [hmissing]) .directory

theorem makeDirectory_existing (h : disk.Reaches path (names ++ [name])) (hend : path.EndsInName)
    (hfound : disk.tree.lookup (names ++ [name]) = some .directory) :
    disk.makeDirectory path = .error .alreadyExists := by
  have hpresent : disk.tree.lookup (names ++ [name]) ≠ none := by rw [hfound]; simp
  rw [makeDirectory, target_directory h hend (lookup_parent hpresent)]
  dsimp only
  rw [if_neg (Nat.not_lt.2 (h.entry hend).2.2), find_cons, if_pos hpresent]

theorem makeDirectory_missing (h : disk.Reaches path (names ++ [name])) (hend : path.EndsInName)
    (hopen : disk.tree.Open names) (hmissing : disk.tree.lookup names = none) :
    disk.makeDirectory path = .error .notFound := by
  rw [makeDirectory, target_missing h hend hopen hmissing]

theorem makeDirectory_rootPath : disk.makeDirectory rootPath = .error .alreadyExists := rfl

/-- The directory is where contents are staged, so the path below it that they are staged under has
to be one that is accepted. -/
theorem replaceFile_directory {directory : Path} (hdirectory : directory.isAbsolute = true)
    (hstaged : disk.Reaches (directory.join ⟨[stagedName]⟩) (names ++ [stagedName]))
    (h : disk.Reaches path (names ++ [name])) (hend : path.EndsInName)
    (hparent : disk.tree.lookup names = some .directory)
    (hfits : disk.tree.lookup (names ++ [name]) ≠ some .directory) (contents : ByteArray) :
    ∃ changed, disk.replaceFile directory path contents = .ok changed ∧
      Puts disk.tree changed.tree (names ++ [name]) (some (.file contents)) := by
  have hstagedEnd : (directory.join ⟨[stagedName]⟩).EndsInName :=
    EndsInName.join ⟨[], stagedName, rfl, by decide⟩ rfl directory
  have hfound : disk.tree.find names.reverse = some .directory := hparent
  have hstage : disk.stage directory = .ok () := by
    rw [stage, absolute, if_pos hdirectory]
    dsimp only
    rw [target_directory hstaged hstagedEnd hparent]
    dsimp only
    rw [if_pos hfound]
  obtain ⟨changed, hput, hchanges⟩ := put_of_directory hparent hfits (.file contents)
  have hplace : disk.placeFile path contents = .ok changed := by
    rw [placeFile, if_neg (by rw [(accepted_iff.1 h.accepted).1]; decide),
      target_directory h hend hparent]
    dsimp only
    rw [if_neg (Nat.not_lt.2 (h.entry hend).2.2),
      if_neg (by rw [hend.endsOpen_eq_false]; decide), hput]
  refine ⟨changed, ?_, hchanges⟩
  rw [replaceFile, hstage]
  dsimp only
  rw [hplace]

theorem puts_remove (tree : FileTree) (names : List String) (name : String)
    (alone : tree.isChildless (name :: names.reverse) = true) :
    Puts tree (tree.remove (name :: names.reverse) alone) (names ++ [name]) none := by
  intro other
  rw [lookup, find_remove]
  simp only [List.reverse_eq_cons_iff, List.reverse_reverse, ne_eq, reduceCtorEq,
    not_false_eq_true, and_true]
  rfl

theorem removeFile_file (h : disk.Reaches path (names ++ [name])) (hend : path.EndsInName)
    {contents : ByteArray} (hfound : disk.tree.lookup (names ++ [name]) = some (.file contents)) :
    ∃ changed, disk.removeFile path = .ok changed ∧
      Puts disk.tree changed.tree (names ++ [name]) none := by
  have hpresent : disk.tree.lookup (names ++ [name]) ≠ none := by rw [hfound]; simp
  rw [← find_cons] at hfound
  rw [removeFile, target_directory h hend (lookup_parent hpresent)]
  dsimp only
  rw [if_neg (Nat.not_lt.2 (h.entry hend).2.2), hend.endsOpen_eq_false]
  split
  · next hnone =>
    rw [hfound] at hnone
    cases hnone
  · next hdirectory =>
    rw [hfound] at hdirectory
    cases hdirectory
  · next hfile =>
    have halone := isChildless_of_find_file hfile
    exact ⟨_, if_neg (by decide), puts_remove disk.tree names name halone⟩

theorem removeFile_missing (h : disk.Reaches path (names ++ [name])) (hend : path.EndsInName)
    (hopen : disk.tree.Open names) (hmissing : disk.tree.lookup (names ++ [name]) = none) :
    disk.removeFile path = .error .notFound := by
  by_cases hnone : disk.tree.lookup names = none
  · rw [removeFile, target_missing h hend hopen hnone]
  · rw [← find_cons] at hmissing
    rw [removeFile, target_directory h hend (hopen.eq_directory hnone)]
    dsimp only
    rw [if_neg (Nat.not_lt.2 (h.entry hend).2.2)]
    split
    · rfl
    · next hdirectory =>
      rw [hmissing] at hdirectory
      cases hdirectory
    · next hfile =>
      rw [hmissing] at hfile
      cases hfile

theorem isEmptyDirectory_eq (h : disk.Reaches path names)
    (hfound : disk.tree.lookup names = some .directory) :
    disk.isEmptyDirectory path = .ok (disk.tree.isChildless names.reverse) := by
  have hentry : disk.tree.entryAt (under names) = some .directory := hfound
  rw [isEmptyDirectory, locate_directory h hfound]
  dsimp only
  rw [hentry]
  rfl

theorem pruneDirectory_kept (h : disk.Reaches path names)
    (hfound : disk.tree.lookup names = some .directory) {inner : String}
    (hinner : disk.tree.lookup (names ++ [inner]) ≠ none) :
    disk.pruneDirectory path = .ok (false, disk) := by
  have hfull : disk.tree.isChildless names.reverse = false := by
    rw [Bool.eq_false_iff, ne_eq, isChildless_iff]
    exact fun hall ↦ hinner (hall inner)
  rw [pruneDirectory, isEmptyDirectory_eq h hfound, hfull]

theorem pruneDirectory_empty (h : disk.Reaches path (names ++ [name])) (hend : path.EndsInName)
    (hfound : disk.tree.lookup (names ++ [name]) = some .directory)
    (halone : ∀ inner, disk.tree.lookup (names ++ [name] ++ [inner]) = none) :
    ∃ changed, disk.pruneDirectory path = .ok (true, changed) ∧
      Puts disk.tree changed.tree (names ++ [name]) none ∧
      changed.workingDirectory = disk.workingDirectory.afterRemoving (name :: names.reverse) := by
  have hpresent : disk.tree.lookup (names ++ [name]) ≠ none := by rw [hfound]; simp
  have hchildless := isChildless_iff.2 halone
  have hplace : (names ++ [name]).reverse = name :: names.reverse := by simp
  have hremove : ∃ changed, disk.removeDirectory path = .ok changed ∧
      Puts disk.tree changed.tree (names ++ [name]) none ∧
      changed.workingDirectory = disk.workingDirectory.afterRemoving (name :: names.reverse) := by
    rw [← find_cons] at hfound
    rw [removeDirectory, target_directory h hend (lookup_parent hpresent)]
    dsimp only
    rw [if_neg (Nat.not_lt.2 (h.entry hend).2.2)]
    rw [hplace] at hchildless
    split
    · next hnone =>
      rw [hfound] at hnone
      cases hnone
    · next hfile =>
      rw [hfound] at hfile
      cases hfile
    · rw [dif_pos hchildless]
      exact ⟨_, rfl, puts_remove disk.tree names name hchildless, rfl⟩
  obtain ⟨changed, heq, hchanges⟩ := hremove
  refine ⟨changed, ?_, hchanges⟩
  rw [pruneDirectory, isEmptyDirectory_eq h hfound, hchildless]
  dsimp only
  rw [heq]

end Disk

end DeclaredSource.Storage
