import DeclaredSource.Proofs.Storage.NormalForm

/-!
# Level paths

A normal form climbs first, if at all, and then goes through names, from the root or from where it
starts. It is level when it does not climb. The paths of the directories on the way to it are made
of its first pieces, and each of them is accepted when the path is.
-/

namespace DeclaredSource.Storage

open FileTree

namespace Path

/-- The piece that makes a path absolute, if any. -/
def Anchor.pieces : Anchor → List String
  | .root => [""]
  | .here => ["."]
  | .none => []

theorem pieces_assemble {names : List String} (present : names ≠ []) (anchor : Anchor) :
    (assemble anchor names).pieces = anchor.pieces ++ names := by
  cases names with
  | nil => exact absurd rfl present
  | cons name names => cases anchor <;> rfl

theorem names_assemble_eq (anchor : Anchor) (names : List String) :
    (assemble anchor names).names = (anchor.pieces ++ names).filter (· ≠ "") := by
  cases names with
  | nil => cases anchor <;> rfl
  | cons name names => cases anchor <;> rfl

theorem isName_of_spelled {name : String} (h : component? name = some (.name name)) :
    IsName name := by
  rw [component?] at h
  split at h
  · cases h
  · next hidle =>
    split at h
    · cases h
    · next hup => exact ⟨by rwa [Bool.not_eq_true] at hidle, hup⟩

theorem isIdle_of_named {names : List String} (named : ∀ name ∈ names, IsName name) :
    ∀ name ∈ names, isIdle name = false :=
  fun name hname ↦ (named name hname).1

theorem proper_of_named {names : List String} (named : ∀ name ∈ names, IsName name) :
    proper names = names :=
  proper_of_forall (isIdle_of_named named)

theorem present_of_named {names : List String} (named : ∀ name ∈ names, IsName name) :
    "" ∉ names :=
  fun hempty ↦ (named "" hempty).ne_empty rfl

theorem level_of_named {names : List String} (named : ∀ name ∈ names, IsName name) :
    ".." ∉ names :=
  fun hup ↦ (named ".." hup).2 rfl

theorem walkable_of_named {names : List String} (named : ∀ name ∈ names, IsName name)
    (short : ∀ name ∈ names, name.utf8ByteSize ≤ longestName) : Walkable names where
  present := present_of_named named
  level := level_of_named named
  short := (proper_of_named named).symm ▸ short

/-- The normal form is made of the pieces, from the root or from where it starts. -/
structure Forms (path : Path) (anchor : Anchor) (pieces : List String) : Prop where
  normal : path.normalize = assemble anchor pieces
  absolute : path.isAbsolute = true ↔ anchor = .root
  relative : anchor ≠ .here
  proper : ∀ piece ∈ pieces, isIdle piece = false

theorem exists_forms (path : Path) : ∃ anchor pieces, path.Forms anchor pieces := by
  obtain ⟨rest, hstack, hspelled⟩ :=
    (settle_settled path.present_names path.isAbsolute).spelled
  have hproper := isIdle_of_spelled hspelled
  cases habsolute : path.isAbsolute with
  | true =>
    refine ⟨.root, rest.map Component.text, ?_, by simp [habsolute], by decide, hproper⟩
    rw [normalize_eq, hstack, habsolute]
    rfl
  | false =>
    refine ⟨.none, rest.map Component.text, ?_, by simp [habsolute], by decide, hproper⟩
    rw [normalize_eq, hstack, habsolute]
    exact ofComponents_spelled hspelled

/-- The normal form is the path that goes through the names, from the root or from where it
starts. -/
structure Levels (path : Path) (anchor : Anchor) (names : List String) : Prop where
  normal : path.normalize = assemble anchor names
  absolute : path.isAbsolute = true ↔ anchor = .root
  relative : anchor ≠ .here
  named : ∀ name ∈ names, IsName name

theorem Levels.named_of_prefix {path : Path} {anchor : Anchor} {names inner : List String}
    (h : path.Levels anchor names) (hinner : inner <+: names) : ∀ name ∈ inner, IsName name :=
  fun name hname ↦ h.named name (hinner.subset hname)

theorem Levels.forms {path : Path} {anchor : Anchor} {names : List String}
    (h : path.Levels anchor names) : path.Forms anchor names :=
  ⟨h.normal, h.absolute, h.relative, isIdle_of_named h.named⟩

theorem ofComponents_names {anchor : Anchor} (relative : anchor ≠ .here) (names : List String) :
    ofComponents (anchor.components ++ names.map .name) = assemble anchor names := by
  have htext : (names.map Component.name).map Component.text = names := by
    rw [List.map_map]
    exact List.map_id names
  cases anchor with
  | here => exact absurd rfl relative
  | root => exact congrArg (assemble .root) htext
  | none =>
    cases names with
    | nil => rfl
    | cons name names => exact congrArg (assemble .none) htext

theorem exists_components (path : Path) : ∃ rest,
    path.normalize.components = (if path.isAbsolute then [.root] else []) ++ rest ∧
      Spelled rest := by
  rw [path.normalize_spelled.2]
  exact (settle_settled path.present_names path.isAbsolute).spelled

theorem root_mem_components {path : Path} :
    .root ∈ path.normalize.components ↔ path.isAbsolute = true := by
  obtain ⟨rest, hcomponents, hspelled⟩ := path.exists_components
  have hnone : Component.root ∉ rest := fun hroot ↦ nomatch hspelled _ hroot
  rw [hcomponents]
  cases path.isAbsolute <;> simp [hnone]

theorem isName_of_mem_components {path : Path} {name : String}
    (h : .name name ∈ path.normalize.components) : IsName name := by
  obtain ⟨rest, hcomponents, hspelled⟩ := path.exists_components
  rw [hcomponents, List.mem_append] at h
  have hrest := h.resolve_left (by cases path.isAbsolute <;> simp)
  exact isName_of_spelled (hspelled (.name name) hrest)

/-- The root is where it was before the path was normalised. -/
theorem anchor_of_stack {anchor : Anchor} (relative : anchor ≠ .here) {names : List String}
    {absolute : Bool} {rest : List Component} (hspelled : Spelled rest)
    (h : anchor.components ++ names.map .name = (if absolute then [.root] else []) ++ rest) :
    (absolute = true ↔ anchor = .root) ∧ names.map .name = rest := by
  have hnone : Component.root ∉ rest := fun hroot ↦ nomatch hspelled _ hroot
  cases anchor with
  | here => exact absurd rfl relative
  | root =>
    cases absolute with
    | false =>
      have hrest : .root :: names.map .name = rest := h
      rw [← hrest] at hnone
      exact absurd List.mem_cons_self hnone
    | true => exact ⟨by simp, (List.cons.inj h).2⟩
  | none =>
    cases absolute with
    | false => exact ⟨by simp, h⟩
    | true =>
      have hnames : names.map Component.name = .root :: rest := h
      have hroot : Component.root ∈ names.map Component.name := hnames ▸ List.mem_cons_self
      simp at hroot

theorem levels_of_components {path : Path} {anchor : Anchor} (relative : anchor ≠ .here)
    {names : List String}
    (h : path.normalize.components = anchor.components ++ names.map .name) :
    path.Levels anchor names := by
  obtain ⟨rest, hstack, hspelled⟩ := path.exists_components
  rw [h] at hstack
  obtain ⟨habsolute, rfl⟩ := anchor_of_stack relative hspelled hstack
  refine ⟨?_, habsolute, relative, ?_⟩
  · rw [← ofComponents_names relative, ← h, path.normalize_spelled.2, ← normalize_eq]
  · intro name hname
    exact isName_of_spelled (hspelled (.name name) (List.mem_map_of_mem hname))

theorem steps_names {names : List String} (named : ∀ name ∈ names, IsName name) :
    steps (names.map .name) = names := by
  have htexts : (names.map Component.name).map Component.text = names := by
    rw [List.map_map]
    exact List.map_id names
  rw [steps, htexts]
  exact List.filter_eq_self.2 fun name hname ↦ decide_eq_true (named name hname).ne_empty

/-- A normal form climbs first, if at all. -/
theorem exists_climb (path : Path) : ∃ count names, (∀ name ∈ names, IsName name) ∧
    path.normalize.names = List.replicate count ".." ++ names := by
  obtain ⟨bottom, names, hbottom, hnamed, hcomponents⟩ := path.exists_bottom
  rw [names_normalize, hcomponents, steps_append, steps_names hnamed]
  generalize path.isAbsolute = absolute at hbottom
  cases hbottom with
  | root => exact ⟨0, names, hnamed, rfl⟩
  | ups count =>
    refine ⟨count, names, hnamed, ?_⟩
    simp [steps, Component.text]

/-- A normal form does not climb when it is absolute or does not begin with two points. -/
theorem exists_levels {path : Path}
    (h : path.isAbsolute = true ∨ path.normalize.components.head? ≠ some .up) :
    ∃ anchor names, path.Levels anchor names ∧
      path.normalize.components = anchor.components ++ names.map .name := by
  obtain ⟨bottom, names, hbottom, -, hcomponents⟩ := path.exists_bottom
  have hlevels (anchor : Anchor) (relative : anchor ≠ .here)
      (hanchor : bottom.reverse = anchor.components) : ∃ anchor names, path.Levels anchor names ∧
        path.normalize.components = anchor.components ++ names.map .name := by
    rw [hanchor] at hcomponents
    exact ⟨anchor, _, levels_of_components relative hcomponents, hcomponents⟩
  generalize hkind : path.isAbsolute = absolute at hbottom
  cases hbottom with
  | root => exact hlevels .root (by decide) rfl
  | ups count =>
    cases count with
    | zero => exact hlevels .none (by decide) rfl
    | succ count =>
      have hhead := h.resolve_left (by rw [hkind]; decide)
      rw [hcomponents, List.reverse_replicate] at hhead
      exact absurd rfl hhead

/-- With a name before it, the last component is a name as well. -/
theorem Settled.getLast {absolute : Bool} {stack init : List Component} {last : Component}
    (h : Settled absolute stack) (hstack : stack.reverse = init ++ [last]) {name : String}
    (hname : .name name ∈ init) : ∃ name, last = .name name := by
  obtain ⟨names, bottom, -, hbottom, rfl⟩ := h
  cases names with
  | cons first names =>
    rw [List.map_cons, List.cons_append, List.reverse_cons] at hstack
    exact ⟨first, (List.cons.inj (List.append_inj' hstack rfl).2).1.symm⟩
  | nil =>
    have hmem : .name name ∈ bottom := by
      rw [← List.mem_reverse, ← List.nil_append bottom, ← List.map_nil, hstack]
      exact List.mem_append_left [last] hname
    cases hbottom with
    | root => simp at hmem
    | ups count => cases List.eq_of_mem_replicate hmem

/-- Nothing is between the base directory and a normal form that does not go on with names only. -/
theorem directoriesBetween_eq_nil {base path : Path}
    (h : ∀ directories last, path.normalize.components ≠
      base.components ++ (directories ++ [last]).map .name) :
    Store.directoriesBetween base path.normalize = [] := by
  rw [Store.directoriesBetween]
  split
  · rfl
  next inside hstrip =>
  rw [stripComponents?_eq_some] at hstrip
  cases hnames : inside.dropLast.mapM Component.name? with
  | none => rfl
  | some directories =>
    -- The last component is not looked at, but where a name comes before it it is a name.
    rw [mapM_name?_eq_some] at hnames
    cases directories with
    | nil => rfl
    | cons first rest =>
      have hpresent : inside ≠ [] := by
        rintro rfl
        cases hnames
      have hinside : path.normalize.components =
          base.components ++ (first :: rest).map .name ++ [inside.getLast hpresent] := by
        rw [hstrip, List.append_assoc, ← hnames, List.dropLast_append_getLast]
      have hfirst : .name first ∈ base.components ++ (first :: rest).map .name := by simp
      have hstack := path.normalize_spelled.2.symm.trans hinside
      obtain ⟨last, hlast⟩ :=
        (settle_settled path.present_names path.isAbsolute).getLast hstack hfirst
      refine absurd ?_ (h (first :: rest) last)
      rw [hinside, hlast, List.map_append, List.append_assoc, List.map_singleton]

/-! ## Paths through names -/

section Assembled

variable {anchor : Anchor} {names inner : List String}

theorem assemble_endsInName (proper : ∀ name ∈ names, isIdle name = false)
    (present : names ≠ []) :
    (assemble anchor names).EndsInName := by
  refine ⟨anchor.pieces ++ names.dropLast, names.getLast present, ?_,
    proper _ (List.getLast_mem present)⟩
  rw [pieces_assemble present, List.append_assoc, List.dropLast_append_getLast]

theorem isAbsolute_assemble (relative : anchor ≠ .here)
    (proper : ∀ name ∈ names, isIdle name = false) :
    (assemble anchor names).isAbsolute = true ↔ anchor = .root := by
  cases anchor with
  | here => exact absurd rfl relative
  | root => cases names <;> simp [assemble, isAbsolute, rootPath]
  | none =>
    cases names with
    | nil => simp [assemble, isAbsolute, Path.empty]
    | cons name names =>
      have hrelative := (anchor_of_head (proper name List.mem_cons_self) names).1
      refine iff_of_false ?_ (by decide)
      rw [Bool.not_eq_true]
      exact hrelative

theorem stem_assemble (relative : anchor ≠ .here)
    (proper : ∀ name ∈ names, isIdle name = false) :
    (assemble anchor names).stem = anchor.pieces ++ names := by
  by_cases present : names = []
  · rw [present]
    cases anchor with
    | here => exact absurd rfl relative
    | root => rfl
    | none => rfl
  · have hend : (assemble anchor names).EndsInName := assemble_endsInName proper present
    rw [stem, hend.endsOpen_eq_false, pieces_assemble present]
    rfl

theorem join_assemble (relative : anchor ≠ .here)
    (proper : ∀ name ∈ names ++ inner, isIdle name = false) (present : inner ≠ []) :
    (assemble anchor names).join ⟨inner⟩ = assemble anchor (names ++ inner) := by
  rw [List.forall_mem_append] at proper
  have hrelative : (⟨inner⟩ : Path).isAbsolute = false := by
    obtain ⟨first, rest, rfl⟩ := List.exists_cons_of_ne_nil present
    exact (anchor_of_head (proper.2 first List.mem_cons_self) rest).1
  have hpresent : names ++ inner ≠ [] := fun hnil ↦ present (List.append_eq_nil_iff.1 hnil).2
  rw [join_of_relative _ hrelative, stem_assemble relative proper.1, List.append_assoc,
    ← pieces_assemble hpresent]

theorem names_assemble (relative : anchor ≠ .here)
    (proper : ∀ name ∈ names, isIdle name = false) : (assemble anchor names).names = names := by
  have hnames : names.filter (· ≠ "") = names := by
    refine List.filter_eq_self.2 fun name hname ↦ decide_eq_true ?_
    rintro rfl
    cases proper "" hname
  rw [names_assemble_eq, List.filter_append, hnames]
  cases anchor with
  | here => exact absurd rfl relative
  | root => rfl
  | none => rfl

end Assembled

theorem Forms.names_normalize {path : Path} {anchor : Anchor} {pieces : List String}
    (h : path.Forms anchor pieces) : path.normalize.names = pieces := by
  rw [h.normal, names_assemble h.relative h.proper]

theorem Forms.anchor_eq {path base : Path} {anchor anchor' : Anchor} {pieces pieces' : List String}
    (h : path.Forms anchor pieces) (h' : base.Forms anchor' pieces')
    (habsolute : path.isAbsolute = true ↔ base.isAbsolute = true) : anchor = anchor' := by
  have hroot : anchor = .root ↔ anchor' = .root :=
    h.absolute.symm.trans (habsolute.trans h'.absolute)
  have hrelative := h.relative
  have hrelative' := h'.relative
  cases anchor <;> cases anchor' <;> simp_all

/-- A directory between a base directory and a path, as it is found by normalising. -/
theorem Spells.between {base path : Path} {names key directories : List String}
    (hbase : base.Denotes names) (hpath : path.Spells (names ++ key)) (hkey : directories <+: key)
    (present : directories ≠ []) : (base.normalize.join ⟨directories⟩).Spells (names ++ directories)
      ∧ (base.normalize.join ⟨directories⟩).EndsInName := by
  have hpre : names ++ directories <+: names ++ key :=
    (List.prefix_append_right_inj names).2 hkey
  have hproper : ∀ name ∈ names ++ directories, isIdle name = false :=
    fun name hname ↦ hpath.isIdle_eq_false (hpre.subset hname)
  have hpresent : names ++ directories ≠ [] := fun hnil ↦ present (List.append_eq_nil_iff.1 hnil).2
  have hpieces : (assemble .root (names ++ directories)).pieces = "" :: (names ++ directories) :=
    pieces_assemble hpresent .root
  rw [hbase.normalize, join_assemble (by decide) hproper present]
  refine ⟨hpath.of_sublist ?_ ?_ ?_, assemble_endsInName hproper hpresent⟩
  · exact (isAbsolute_assemble (by decide) hproper).2 rfl
  · obtain ⟨first, rest, heq⟩ := exists_of_isAbsolute hpath.absolute
    have hproper := hpath.proper
    rw [heq, proper_cons_of_idle (by decide)] at hproper
    rw [hpieces, heq]
    apply List.Sublist.cons_cons
    calc
      (names ++ directories).Sublist (names ++ key) := hpre.sublist
      (names ++ key).Sublist (first :: rest) := hproper ▸ List.filter_sublist
  · rw [hpieces, proper_cons_of_idle (by decide),
      proper_of_forall hproper]

end Path

namespace Disk

open Storage.Path

variable {disk : Disk} {path : Path} {anchor : Anchor} {names inner outer file : List String}
  {count : Nat}

/-- Where the paths with an anchor start. -/
def origin (disk : Disk) (anchor : Anchor) : Standpoint :=
  if anchor = .root then .root else disk.workingDirectory

theorem find_kept_origin (disk : Disk) (anchor : Anchor) :
    disk.tree.find (disk.origin anchor).kept = some .directory := by
  rw [origin]
  split
  · exact disk.tree.find_root
  · exact disk.stands

theorem start_assemble (relative : anchor ≠ .here)
    (proper : ∀ name ∈ names, isIdle name = false) :
    disk.start (assemble anchor names) = disk.origin anchor := by
  simp only [start, origin, isAbsolute_assemble relative proper]

/-- A path of the first pieces is accepted when the path that they come from is. -/
theorem accepted_of_forms (h : path.Forms anchor names) (accepted : refusal? path = none)
    (hinner : inner <+: names) (present : inner ≠ []) :
    refusal? (assemble anchor inner) = none := by
  have hproper : ∀ name ∈ inner, isIdle name = false :=
    fun name hname ↦ h.proper name (hinner.subset hname)
  have hnames : inner.Sublist path.names := by
    have hnormal := path.names_normalize_sublist
    rw [h.normal, names_assemble h.relative h.proper] at hnormal
    exact hinner.sublist.trans hnormal
  refine accepted_of_sublist accepted ?_ ?_ ?_
  · rw [pieces_assemble present]
    cases anchor with
    | here => exact absurd rfl h.relative
    | none => exact hnames.trans List.filter_sublist
    | root =>
      obtain ⟨first, rest, rfl⟩ := exists_of_isAbsolute (h.absolute.2 rfl)
      have hdrop : (⟨"" :: first :: rest⟩ : Path).names = (first :: rest).filter (· ≠ "") := rfl
      rw [hdrop] at hnames
      exact (hnames.trans List.filter_sublist).cons_cons ""
  · rw [pieces_assemble present]
    exact fun hnil ↦ present (List.append_eq_nil_iff.1 hnil).2
  · intro hempty
    have hend : (assemble anchor inner).EndsInName := assemble_endsInName hproper present
    have hclosed := hend.endsOpen_eq_false
    rw [hempty] at hclosed
    cases hclosed

theorem reaches_of_levels (h : path.Levels anchor names) (accepted : refusal? path = none)
    (short : ∀ name ∈ names, name.utf8ByteSize ≤ longestName)
    (horigin : disk.origin anchor = FileTree.under outer) (hinner : inner <+: names)
    (present : inner ≠ []) : disk.Reaches (assemble anchor inner) (outer ++ inner) := by
  have hnamed := h.named_of_prefix hinner
  have hnames : (assemble anchor inner).names = inner :=
    names_assemble h.relative (isIdle_of_named hnamed)
  refine ⟨accepted_of_forms h.forms accepted hinner present, ?_, outer, ?_, ?_⟩
  · rw [hnames]
    exact walkable_of_named hnamed fun name hname ↦ short name (hinner.subset hname)
  · rw [start_assemble h.relative (isIdle_of_named hnamed), horigin]
  · rw [hnames, proper_of_named hnamed]

/-- A path that leads somewhere has climbed out of where it starts to where its names are, and leads
on through them. -/
theorem walk_of_forms (h : path.Forms anchor (List.replicate count ".." ++ names))
    (named : ∀ name ∈ names, IsName name)
    (hwalk : disk.tree.walk (disk.start path) path.names = .ok (under file)) :
    ∃ outer, (disk.origin anchor).climbed count = under outer ∧ file = outer ++ names ∧
      (∀ name ∈ names, name.utf8ByteSize ≤ longestName) ∧
      ∀ inner, inner <+: names →
        disk.tree.walk (under outer) inner = .ok (under (outer ++ inner)) := by
  have hnormal := walk_normalize hwalk
  rw [h.normal, names_assemble h.relative h.proper, start_assemble h.relative h.proper] at hnormal
  obtain ⟨next, hnext, hthere⟩ := walk_append_eq_ok.1 hnormal
  obtain rfl := Except.ok.inj ((walk_ups (disk.find_kept_origin anchor) count).symm.trans hnext)
  have hlevel {inner : List String} {finish : Standpoint} (hinner : inner <+: names)
      (hto : disk.tree.walk ((disk.origin anchor).climbed count) inner = .ok finish) :
      finish = ⟨inner.reverse ++ ((disk.origin anchor).climbed count).place,
          ((disk.origin anchor).climbed count).removed⟩ ∧
        ∀ name ∈ inner, name.utf8ByteSize ≤ longestName := by
    have hnamed : ∀ name ∈ inner, IsName name := fun name hname ↦ named name (hinner.subset hname)
    obtain ⟨hfinish, -, hshort⟩ :=
      walk_level hto (present_of_named hnamed) (level_of_named hnamed)
    rw [proper_of_named hnamed] at hfinish hshort
    exact ⟨hfinish, hshort⟩
  obtain ⟨hfinish, hshort⟩ := hlevel (List.prefix_refl names) hthere
  obtain ⟨hplace, hremoved⟩ := Standpoint.mk.inj hfinish
  have houter : (disk.origin anchor).climbed count =
      under ((disk.origin anchor).climbed count).place.reverse := by
    rw [under, List.reverse_reverse, hremoved]
  refine ⟨_, houter, ?_, hshort, ?_⟩
  · rw [← List.reverse_inj, hplace, List.reverse_append, List.reverse_reverse]
  · rintro inner ⟨rest, rfl⟩
    obtain ⟨next, hinner, -⟩ := walk_append_eq_ok.1 hthere
    rw [← houter, hinner, (hlevel (List.prefix_append inner rest) hinner).1, under,
      List.reverse_append, List.reverse_reverse, ← hremoved]

/-- A level path leads through its names from where it starts. -/
theorem walk_of_levels (h : path.Levels anchor names)
    (hwalk : disk.tree.walk (disk.start path) path.names = .ok (under file)) :
    ∃ outer, disk.origin anchor = under outer ∧ file = outer ++ names ∧
      (∀ name ∈ names, name.utf8ByteSize ≤ longestName) ∧
      ∀ inner, inner <+: names →
        disk.tree.walk (disk.origin anchor) inner = .ok (under (outer ++ inner)) := by
  have hforms : path.Forms anchor (List.replicate 0 ".." ++ names) := h.forms
  obtain ⟨outer, hclimbed, hfile, hshort, hleads⟩ := walk_of_forms hforms h.named hwalk
  have horigin : disk.origin anchor = under outer := hclimbed
  exact ⟨outer, horigin, hfile, hshort, horigin ▸ hleads⟩

end Disk

end DeclaredSource.Storage
