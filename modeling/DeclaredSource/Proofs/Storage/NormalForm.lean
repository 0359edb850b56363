import DeclaredSource.Proofs.Storage.Walks

/-!
# Normal forms of paths

The stack of a path that is normalised holds names, and below them the root or what climbs out of
where the path starts. Every piece of the path keeps this and keeps what the stack leads to, so a
path that leads somewhere leads there in its normal form as well, and the normal form is made of
pieces of the path.
-/

namespace DeclaredSource.Storage

open FileTree

namespace Path

/-- A piece that an entry can have as its name. -/
def IsName (piece : String) : Prop :=
  isIdle piece = false ∧ piece ≠ ".."

theorem IsName.ne_empty {piece : String} (h : IsName piece) : piece ≠ "" := by
  rintro rfl
  cases h.1

/-- What is at the bottom of the stack of an absolute or a relative path. -/
inductive Bottom : Bool → List Component → Prop
  | root : Bottom true [.root]
  | ups (count : Nat) : Bottom false (List.replicate count .up)

/-- Names, and below them what is at the bottom. -/
def Settled (absolute : Bool) (stack : List Component) : Prop :=
  ∃ (names : List String) (bottom : List Component), (∀ name ∈ names, IsName name) ∧
    Bottom absolute bottom ∧ stack = names.map .name ++ bottom

/-- What a piece does to the stack. -/
def pass (stack : List Component) (piece : String) : List Component :=
  ((component? piece).map (climb stack)).getD stack

/-- The stack after all pieces. -/
def settle (absolute : Bool) (pieces : List String) : List Component :=
  pieces.foldl pass (if absolute then [.root] else [])

theorem pass_here (stack : List Component) : pass stack "." = stack := rfl

theorem pass_name {piece : String} (h : IsName piece) (stack : List Component) :
    pass stack piece = .name piece :: stack := by
  rw [pass, component?, if_neg (by rw [h.1]; decide), if_neg h.2]
  cases stack with
  | nil => rfl
  | cons top rest => cases top <;> rfl

theorem pass_up_name (name : String) (stack : List Component) :
    pass (.name name :: stack) ".." = stack := rfl

theorem pass_up_ups (count : Nat) :
    pass (List.replicate count .up) ".." = List.replicate (count + 1) .up := by
  cases count <;> rfl

theorem isName_of_ne {piece : String} (present : piece ≠ "") (point : piece ≠ ".")
    (level : piece ≠ "..") : IsName piece :=
  ⟨by simp [isIdle, present, point], level⟩

theorem Settled.pass {absolute : Bool} {stack : List Component} (h : Settled absolute stack)
    {piece : String} (present : piece ≠ "") : Settled absolute (Path.pass stack piece) := by
  obtain ⟨names, bottom, hnamed, hbottom, rfl⟩ := h
  by_cases hpoint : piece = "."
  · rw [hpoint, pass_here]
    exact ⟨names, bottom, hnamed, hbottom, rfl⟩
  by_cases hup : piece = ".."
  · rw [hup]
    cases names with
    | cons name names => exact ⟨names, bottom, (List.forall_mem_cons.1 hnamed).2, hbottom, rfl⟩
    | nil =>
      cases hbottom with
      | root => exact ⟨[], _, hnamed, .root, rfl⟩
      | ups count => exact ⟨[], _, hnamed, .ups (count + 1), pass_up_ups count⟩
  · have hname := isName_of_ne present hpoint hup
    rw [pass_name hname]
    exact ⟨piece :: names, bottom, List.forall_mem_cons.2 ⟨hname, hnamed⟩, hbottom, rfl⟩

theorem settle_concat (absolute : Bool) (pieces : List String) (piece : String) :
    settle absolute (pieces ++ [piece]) = pass (settle absolute pieces) piece := by
  rw [settle, settle, List.foldl_concat]

theorem settle_settled {pieces : List String} (present : "" ∉ pieces) (absolute : Bool) :
    Settled absolute (settle absolute pieces) := by
  have hstart : Settled absolute (if absolute then [.root] else []) := by
    cases absolute with
    | true => exact ⟨[], _, by simp, .root, rfl⟩
    | false => exact ⟨[], _, by simp, .ups 0, rfl⟩
  rw [settle]
  induction pieces using List.reverseRecOn with
  | nil => exact hstart
  | append_singleton init last ih =>
    rw [List.mem_append, not_or, List.mem_singleton] at present
    rw [List.foldl_concat]
    exact (ih present.1).pass (Ne.symm present.2)

theorem foldl_pass (pieces : List String) (stack : List Component) :
    pieces.foldl pass stack = (pieces.filterMap component?).foldl climb stack := by
  rw [List.foldl_filterMap]
  congr 1
  funext stack piece
  rw [pass]
  cases component? piece <;> rfl

theorem filterMap_names (path : Path) :
    path.names.filterMap component? = path.pieces.filterMap component? := by
  rw [names, List.filterMap_filter]
  apply List.filterMap_congr
  intro piece _
  by_cases hpiece : piece = ""
  · rw [hpiece]
    rfl
  · simp [hpiece]

theorem filterMap_body (path : Path) :
    path.body.filterMap component? = path.names.filterMap component? := by
  have htail {head : String} (hhead : path.pieces.head? = some head) (hidle : isIdle head = true) :
      path.pieces.tail.filterMap component? = path.pieces.filterMap component? := by
    obtain ⟨rest, hpieces⟩ := List.head?_eq_some_iff.1 hhead
    have hnone : component? head = none := by rw [component?, if_pos hidle]
    rw [hpieces, List.filterMap_cons_none hnone, List.tail_cons]
  rw [filterMap_names, body, anchor]
  by_cases habsolute : path.isAbsolute = true
  · obtain ⟨first, rest, hpath⟩ := exists_of_isAbsolute habsolute
    rw [if_pos habsolute]
    exact htail (by rw [hpath]; rfl) (by decide)
  · rw [if_neg habsolute]
    split
    · rfl
    · next hanchor =>
      split at hanchor
      · next hhere => exact htail hhere (by decide)
      · exact absurd rfl hanchor

theorem normalize_eq (path : Path) :
    path.normalize = ofComponents (settle path.isAbsolute path.names).reverse := by
  have hanchor : path.anchor.components.foldl climb [] =
      if path.isAbsolute then [.root] else [] := by
    rw [anchor]
    cases path.isAbsolute with
    | true => rfl
    | false =>
      simp only [Bool.false_eq_true, if_false]
      split <;> rfl
  rw [normalize, components, List.foldl_append, hanchor, filterMap_body, ← foldl_pass, settle]

/-- The pieces that components are spelled with. -/
def steps (components : List Component) : List String :=
  (components.map Component.text).filter (· ≠ "")

theorem steps_append (components components' : List Component) :
    steps (components ++ components') = steps components ++ steps components' := by
  rw [steps, List.map_append, List.filter_append]
  rfl

theorem steps_name {name : String} (h : name ≠ "") : steps [.name name] = [name] := by
  simp [steps, Component.text, h]

theorem names_ofComponents (components : List Component) :
    (ofComponents components).names = steps components := by
  rw [ofComponents.eq_def]
  split
  · next rest =>
    cases rest <;> simp [assemble, names, steps, rootPath, Component.text]
  · cases components <;> simp [assemble, names, steps, Path.empty]

section Walks

variable {tree : FileTree} {start here next finish : Standpoint} {absolute : Bool}
  {stack : List Component} {piece : String} {pieces : List String}

/-- Going out of a name that was entered leads back to where it was entered from. -/
theorem walk_pass_up (h : Settled absolute stack) (hstart : absolute = true → start = .root)
    (hwalk : tree.walk start (steps stack.reverse) = .ok here)
    (directory : tree.isFile here = false) :
    tree.walk start (steps (pass stack "..").reverse) = .ok here.outside := by
  obtain ⟨names, bottom, hnamed, hbottom, rfl⟩ := h
  cases names with
  | cons name names =>
    obtain ⟨⟨hidle, hup⟩, -⟩ := List.forall_mem_cons.1 hnamed
    have hne : name ≠ "" := IsName.ne_empty ⟨hidle, hup⟩
    rw [List.map_cons, List.cons_append, List.reverse_cons, steps_append, steps_name hne] at hwalk
    -- Only a step into the name can have come here, and that step started at its directory.
    obtain ⟨outer, houter, henters⟩ := walk_concat_eq_ok.1 hwalk
    rw [List.map_cons, List.cons_append, pass_up_name]
    cases henters with
    | here => cases hidle
    | out => exact absurd rfl hup
    | into => exact houter
  | nil =>
    cases hbottom with
    | root =>
      have hhere : start = here := Except.ok.inj hwalk
      rw [← hhere, hstart rfl] at hwalk ⊢
      exact hwalk
    | ups count =>
      rw [List.map_nil, List.nil_append, pass_up_ups, List.replicate_succ, List.reverse_cons,
        steps_append]
      exact walk_concat_eq_ok.2 ⟨here, hwalk, .out directory⟩

theorem walk_pass (h : Settled absolute stack) (hstart : absolute = true → start = .root)
    (hwalk : tree.walk start (steps stack.reverse) = .ok here) (present : piece ≠ "")
    (henters : Enters tree here piece next) :
    tree.walk start (steps (pass stack piece).reverse) = .ok next := by
  cases henters with
  | here directory => rwa [pass_here]
  | out directory => exact walk_pass_up h hstart hwalk directory
  | into directory point level short found =>
    rw [pass_name (isName_of_ne present point level), List.reverse_cons, steps_append,
      steps_name present]
    exact walk_concat_eq_ok.2 ⟨_, hwalk, .into directory point level short found⟩

theorem walk_settle (present : "" ∉ pieces) (hstart : absolute = true → start = .root)
    (hwalk : tree.walk start pieces = .ok finish) :
    tree.walk start (steps (settle absolute pieces).reverse) = .ok finish := by
  induction pieces using List.reverseRecOn generalizing finish with
  | nil => cases absolute <;> exact hwalk
  | append_singleton init last ih =>
    rw [List.mem_append, not_or, List.mem_singleton] at present
    obtain ⟨here, hinit, henters⟩ := walk_concat_eq_ok.1 hwalk
    have hpass := walk_pass (settle_settled present.1 absolute) hstart (ih present.1 hinit)
      (Ne.symm present.2) henters
    rwa [settle_concat]

end Walks

/-! ## The normal form -/

theorem components_assemble_root (body : List String) :
    (assemble .root body).components = .root :: body.filterMap component? := by
  cases body <;> rfl

theorem anchor_of_head {first : String} (hfirst : isIdle first = false) (rest : List String) :
    (⟨first :: rest⟩ : Path).isAbsolute = false ∧ (⟨first :: rest⟩ : Path).anchor = .none := by
  have hempty : first ≠ "" := by
    rintro rfl
    cases hfirst
  have hpoint : first ≠ "." := by
    rintro rfl
    cases hfirst
  simp [anchor, isAbsolute, hempty, hpoint]

theorem components_assemble_none {body : List String} (h : ∀ piece ∈ body, isIdle piece = false) :
    (assemble .none body).components = body.filterMap component? := by
  cases body with
  | nil => rfl
  | cons first rest =>
    obtain ⟨-, hanchor⟩ := anchor_of_head (List.forall_mem_cons.1 h).1 rest
    rw [assemble, components, Path.body, hanchor]
    · rfl
    · simp

/-- Components that are read back from what they are spelled with. -/
def Spelled (components : List Component) : Prop :=
  ∀ component ∈ components, component? component.text = some component

theorem filterMap_of_spelled {components : List Component} (h : Spelled components) :
    (components.map Component.text).filterMap component? = components := by
  induction components with
  | nil => rfl
  | cons component components ih =>
    obtain ⟨hhead, hrest⟩ := List.forall_mem_cons.1 h
    rw [List.map_cons, List.filterMap_cons_some hhead, ih hrest]

theorem isIdle_of_spelled {components : List Component} (h : Spelled components) :
    ∀ piece ∈ components.map Component.text, isIdle piece = false := by
  intro piece hpiece
  obtain ⟨component, hmem, rfl⟩ := List.mem_map.1 hpiece
  have hspelled := h component hmem
  rw [component?] at hspelled
  split at hspelled
  · cases hspelled
  · next hidle => rwa [Bool.not_eq_true] at hidle

theorem Settled.spelled {absolute : Bool} {stack : List Component} (h : Settled absolute stack) :
    ∃ rest, stack.reverse = (if absolute then [.root] else []) ++ rest ∧ Spelled rest := by
  obtain ⟨names, bottom, hnamed, hbottom, rfl⟩ := h
  have hnames : Spelled (names.map Component.name).reverse := by
    intro component hmem
    rw [List.mem_reverse] at hmem
    obtain ⟨name, hname, rfl⟩ := List.mem_map.1 hmem
    obtain ⟨hidle, hup⟩ := hnamed name hname
    simp [component?, Component.text, hidle, hup]
  rw [List.reverse_append]
  cases hbottom with
  | root => exact ⟨_, rfl, hnames⟩
  | ups count =>
    refine ⟨_, rfl, ?_⟩
    intro component hmem
    rw [List.reverse_replicate] at hmem
    rcases List.mem_append.1 hmem with hup | hname
    · rw [List.eq_of_mem_replicate hup]
      rfl
    · exact hnames component hname

theorem present_names (path : Path) : "" ∉ path.names := by
  simp [names]

theorem ofComponents_spelled {components : List Component} (h : Spelled components) :
    ofComponents components = assemble .none (components.map Component.text) := by
  rw [ofComponents.eq_def]
  split
  · have hroot := h .root List.mem_cons_self
    cases hroot
  · rfl

/-- The normal form is spelled with the components on the stack. -/
theorem normalize_spelled (path : Path) :
    path.normalize.isAbsolute = path.isAbsolute ∧
      path.normalize.components = (settle path.isAbsolute path.names).reverse := by
  obtain ⟨rest, hstack, hspelled⟩ :=
    (settle_settled path.present_names path.isAbsolute).spelled
  rw [normalize_eq, hstack]
  cases path.isAbsolute with
  | true =>
    have hform : ofComponents ([.root] ++ rest) = assemble .root (rest.map Component.text) := rfl
    simp only [if_true]
    rw [hform, components_assemble_root, filterMap_of_spelled hspelled]
    refine ⟨?_, rfl⟩
    cases rest <;> rfl
  | false =>
    simp only [Bool.false_eq_true, if_false, List.nil_append]
    rw [ofComponents_spelled hspelled, components_assemble_none (isIdle_of_spelled hspelled),
      filterMap_of_spelled hspelled]
    refine ⟨?_, rfl⟩
    cases rest with
    | nil => rfl
    | cons first rest =>
      exact (anchor_of_head (isIdle_of_spelled hspelled _ List.mem_cons_self) _).1

/-- What a normal form begins with, and the names after it. -/
theorem exists_bottom (path : Path) : ∃ (bottom : List Component) (names : List String),
    Bottom path.isAbsolute bottom ∧ (∀ name ∈ names, IsName name) ∧
      path.normalize.components = bottom.reverse ++ names.map .name := by
  obtain ⟨names, bottom, hnamed, hbottom, hstack⟩ :=
    settle_settled path.present_names path.isAbsolute
  refine ⟨bottom, names.reverse, hbottom,
    fun name hname ↦ hnamed name (List.mem_reverse.1 hname), ?_⟩
  rw [path.normalize_spelled.2, hstack, List.reverse_append, List.map_reverse]

theorem names_normalize (path : Path) : path.normalize.names = steps path.normalize.components := by
  rw [path.normalize_spelled.2, normalize_eq, names_ofComponents]

/-- Where a path leads, its normal form leads. The empty normal form stays where it starts. -/
theorem walk_normalize {disk : Disk} {path : Path} {finish : Standpoint}
    (h : disk.tree.walk (disk.start path) path.names = .ok finish) :
    disk.tree.walk (disk.start path.normalize) path.normalize.names = .ok finish := by
  obtain ⟨habsolute, hcomponents⟩ := path.normalize_spelled
  have hstart : disk.start path.normalize = disk.start path := by
    rw [Disk.start, Disk.start, habsolute]
  rw [hstart, names_normalize, hcomponents]
  refine walk_settle path.present_names (fun hroot ↦ ?_) h
  rw [Disk.start, if_pos hroot]

theorem steps_pass (stack : List Component) (piece : String) :
    (steps (pass stack piece).reverse).Sublist (steps stack.reverse ++ [piece]) := by
  have hstay : (steps stack.reverse).Sublist (steps stack.reverse ++ [piece]) :=
    List.sublist_append_left _ _
  by_cases hidle : isIdle piece = true
  · rwa [pass, component?, if_pos hidle]
  by_cases hup : piece = ".."
  · rw [hup] at hstay ⊢
    have hpush :
        (steps (Component.up :: stack).reverse).Sublist (steps stack.reverse ++ [".."]) := by
      rw [List.reverse_cons, steps_append]
      exact List.Sublist.refl _
    cases stack with
    | nil => exact hpush
    | cons top stack =>
      cases top with
      | name text =>
        rw [List.reverse_cons, steps_append, List.append_assoc]
        exact List.sublist_append_left _ _
      | root => exact hstay
      | here => exact hpush
      | up => exact hpush
  · have hname : IsName piece := ⟨by rwa [Bool.not_eq_true] at hidle, hup⟩
    rw [pass_name hname, List.reverse_cons, steps_append, steps_name hname.ne_empty]

theorem steps_settle (absolute : Bool) (pieces : List String) :
    (steps (settle absolute pieces).reverse).Sublist pieces := by
  induction pieces using List.reverseRecOn with
  | nil => cases absolute <;> exact List.Sublist.refl _
  | append_singleton init last ih =>
    rw [settle_concat]
    exact (steps_pass _ last).trans (ih.append_right [last])

theorem names_normalize_sublist (path : Path) : path.normalize.names.Sublist path.names := by
  rw [names_normalize, path.normalize_spelled.2]
  exact steps_settle path.isAbsolute path.names

end Path

end DeclaredSource.Storage
