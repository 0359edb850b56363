import DeclaredSource.Proofs.Storage.NormalForm
import DeclaredSource.Proofs.Storage.StoreRuns

/-!
# Normal forms are canonical

A stack that holds names above its bottom is spelled so that passing over what it is spelled with
builds it again. So normalising twice is normalising once, and a path may be normalised before
another one is joined to it: what is joined is passed over by the same stack. Names that are joined
to a base are what is left of the normal form when the normal form of the base is stripped off.
-/

namespace DeclaredSource.Storage.Path

/-- A normal form is the root and names, or climbs and then goes through names. -/
theorem components_normalize_shape (path : Path) :
    (path.isAbsolute = true → ∃ names : List String,
        path.normalize.components = .root :: names.map .name) ∧
      (path.isAbsolute = false → ∃ (count : Nat) (names : List String),
        path.normalize.components = List.replicate count .up ++ names.map .name) := by
  obtain ⟨bottom, names, hbottom, -, hcomponents⟩ := path.exists_bottom
  rw [hcomponents]
  generalize path.isAbsolute = absolute at hbottom
  cases hbottom with
  | root => exact ⟨fun _ ↦ ⟨names, rfl⟩, nofun⟩
  | ups count => exact ⟨nofun, fun _ ↦ ⟨count, names, by rw [List.reverse_replicate]⟩⟩

theorem here_not_mem_normalize (path : Path) : .here ∉ path.normalize.components := by
  obtain ⟨habsolute, hrelative⟩ := path.components_normalize_shape
  cases hkind : path.isAbsolute with
  | true =>
    obtain ⟨names, hnames⟩ := habsolute hkind
    simp [hnames]
  | false =>
    obtain ⟨count, names, hnames⟩ := hrelative hkind
    simp [hnames]

theorem up_not_mem_normalize {path : Path} (absolute : path.isAbsolute = true) :
    .up ∉ path.normalize.components := by
  obtain ⟨names, hnames⟩ := path.components_normalize_shape.1 absolute
  simp [hnames]

theorem settle_append (absolute : Bool) (pieces pieces' : List String) :
    settle absolute (pieces ++ pieces') = pieces'.foldl pass (settle absolute pieces) :=
  List.foldl_append

theorem settle_ups (count : Nat) :
    settle false (steps (List.replicate count .up)) = List.replicate count .up := by
  induction count with
  | zero => rfl
  | succ count ih =>
    have hsteps : steps (List.replicate (count + 1) .up) =
        steps (List.replicate count .up) ++ [".."] := by
      rw [List.replicate_succ', steps_append]
      rfl
    rw [hsteps, settle_concat, ih, pass_up_ups]

/-- Passing over what a settled stack is spelled with builds the stack. -/
theorem Settled.settle_steps {absolute : Bool} {stack : List Component}
    (h : Settled absolute stack) : settle absolute (steps stack.reverse) = stack := by
  obtain ⟨names, bottom, hnamed, hbottom, rfl⟩ := h
  induction names with
  | nil =>
    cases hbottom with
    | root => rfl
    | ups count => rw [List.map_nil, List.nil_append, List.reverse_replicate, settle_ups]
  | cons name names ih =>
    obtain ⟨hname, hnamed⟩ := List.forall_mem_cons.1 hnamed
    rw [List.map_cons, List.cons_append, List.reverse_cons, steps_append,
      steps_name hname.ne_empty, settle_concat, ih hnamed, pass_name hname]

theorem settle_names_normalize (path : Path) :
    settle path.isAbsolute path.normalize.names = settle path.isAbsolute path.names := by
  rw [names_normalize, path.normalize_spelled.2]
  exact (settle_settled path.present_names path.isAbsolute).settle_steps

theorem normalize_normalize (path : Path) : path.normalize.normalize = path.normalize := by
  rw [normalize_eq path.normalize, path.normalize_spelled.1, settle_names_normalize,
    ← normalize_eq]

theorem names_join (base : Path) {path : Path} (relative : path.isAbsolute = false) :
    (base.join path).names = base.names ++ path.names := by
  have hstem : base.stem.filter (· ≠ "") = base.names := by
    rw [stem]
    split
    · next hopen =>
      rw [names]
      nth_rewrite 2 [dropLast_append_empty hopen]
      simp
    · rfl
  rw [join_of_relative base relative, names, List.filter_append, hstem]
  rfl

/-- The stack of a joined path goes on from the stack of its base. -/
theorem components_normalize_join (base : Path) {path : Path}
    (relative : path.isAbsolute = false) (present : path.pieces ≠ []) :
    (base.join path).normalize.components =
      (path.names.foldl pass (settle base.isAbsolute base.names)).reverse := by
  rw [(base.join path).normalize_spelled.2, isAbsolute_join base relative present,
    names_join base relative, settle_append]

/-- A path may be normalised before another one is joined to it. -/
theorem normalize_join (base : Path) {path : Path} (present : path.pieces ≠ []) :
    (base.normalize.join path).normalize = (base.join path).normalize := by
  cases hkind : path.isAbsolute with
  | true => rw [join, join, if_pos hkind, if_pos hkind]
  | false =>
    calc
      (base.normalize.join path).normalize =
          ofComponents (settle base.isAbsolute (base.normalize.names ++ path.names)).reverse := by
        rw [normalize_eq, isAbsolute_join _ hkind present, base.normalize_spelled.1,
          names_join _ hkind]
      _ = ofComponents (settle base.isAbsolute (base.names ++ path.names)).reverse := by
        rw [settle_append, settle_names_normalize, ← settle_append]
      _ = (base.join path).normalize := by
        rw [normalize_eq, isAbsolute_join _ hkind present, names_join _ hkind]

/-- Names go on top of the stack of the base. -/
theorem components_normalize_join_names (base : Path) {path : Path} {names : List String}
    (h : path.components = names.map .name) (present : path.pieces ≠ []) :
    (base.join path).normalize.components = base.normalize.components ++ names.map .name := by
  obtain ⟨hrelative, hpieces⟩ := relative_of_components h
  have hnames : path.names.filterMap component? = names.map .name := by
    rw [filterMap_names, filterMap_component?_eq.2 hpieces]
  rw [components_normalize_join base hrelative present, foldl_pass, hnames, foldl_climb_names,
    List.reverse_append, List.reverse_reverse, ← base.normalize_spelled.2]

/-- A normal form has no points in it, and two points at most where a relative one begins; what is
normal stays as it is, and what a path is joined to may be normalised first. Stripping the normal
form of a base from that of a path of names below it gives the names. -/
theorem normal_forms_are_canonical (path : Path) (text : String) :
    (.here ∉ path.normalize.components ∧
      (path.isAbsolute = true →
        path.normalize.isAbsolute = true ∧ .up ∉ path.normalize.components) ∧
      (path.isAbsolute = false →
        path.normalize.isAbsolute = false ∧ ∃ (count : Nat) (names : List String),
          path.normalize.components = List.replicate count .up ++ names.map .name)) ∧
    path.normalize.normalize = path.normalize ∧
    (path.join (ofString text)).normalize = (path.normalize.join (ofString text)).normalize ∧
    ∀ names : List String, (ofString text).components = names.map .name →
      stripComponents? path.normalize.components
          (path.join (ofString text)).normalize.components =
        some (ofString text).components := by
  have hpresent : (ofString text).pieces ≠ [] := Store.pieces_ne_nil text
  have hkind := path.normalize_spelled.1
  refine ⟨⟨here_not_mem_normalize path, fun habsolute ↦ ?_, fun hrelative ↦ ?_⟩,
    normalize_normalize path, (normalize_join path hpresent).symm, fun names hnames ↦ ?_⟩
  · exact ⟨hkind.trans habsolute, up_not_mem_normalize habsolute⟩
  · exact ⟨hkind.trans hrelative, path.components_normalize_shape.2 hrelative⟩
  · rw [stripComponents?_eq_some, hnames]
    exact components_normalize_join_names path hnames hpresent

theorem normal_forms_are_canonical_climbing :
    (ofString "./a/../../b").isAbsolute = false ∧
      (∃ (count : Nat) (names : List String), (ofString "./a/../../b").normalize.components =
        List.replicate count .up ++ names.map .name) ∧
      (ofString "/../a").isAbsolute = true ∧ .up ∉ (ofString "/../a").normalize.components ∧
      (ofString "c/./d").components = ["c", "d"].map .name ∧
      stripComponents? (ofString "x/../..").normalize.components
          ((ofString "x/../..").join (ofString "c/./d")).normalize.components =
        some (ofString "c/./d").components :=
  ⟨rfl, ((normal_forms_are_canonical (ofString "./a/../../b") "").1.2.2 rfl).2,
    rfl, ((normal_forms_are_canonical (ofString "/../a") "").1.2.1 rfl).2,
    rfl, (normal_forms_are_canonical (ofString "x/../..") "c/./d").2.2.2 ["c", "d"] rfl⟩

end DeclaredSource.Storage.Path
