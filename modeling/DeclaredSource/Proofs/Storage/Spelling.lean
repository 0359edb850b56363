import DeclaredSource.Storage.Store
import DeclaredSource.Storage.Disk
import Mathlib.Data.List.DropRight

/-!
# What a path spells

An absolute path without two points spells the list of its names, outermost first. Empty pieces and
points between the names make no difference to what is spelled, only to the length of the text. What
a path spells is carried through joining, taking parents and normalising, and every path that arises
is short enough when the path that it comes from is.
-/

namespace DeclaredSource.Storage

namespace Path

/-- The size of pieces that are each followed by a slash. -/
def spelledSize : List String → Nat
  | [] => 0
  | piece :: rest => piece.utf8ByteSize + 1 + spelledSize rest

theorem utf8ByteSize_text {path : Path} (h : path.pieces ≠ []) :
    path.text.utf8ByteSize + 1 = spelledSize path.pieces := by
  obtain ⟨pieces⟩ := path
  rw [text]
  induction pieces with
  | nil => exact absurd rfl h
  | cons first rest ih =>
    cases rest with
    | nil => simp [spelledSize]
    | cons second rest =>
      rw [String.intercalate_cons_cons, String.utf8ByteSize_append, String.utf8ByteSize_append,
        spelledSize, ← ih (by simp)]
      have hslash : "/".utf8ByteSize = 1 := by decide
      dsimp only
      omega

theorem spelledSize_le {pieces pieces' : List String} (h : pieces.Sublist pieces') :
    spelledSize pieces ≤ spelledSize pieces' := by
  induction h with
  | slnil => exact Nat.le_refl _
  | cons piece _ ih =>
    rw [spelledSize]
    omega
  | cons_cons piece _ ih =>
    rw [spelledSize, spelledSize]
    omega

theorem spelledSize_concat (pieces : List String) (piece : String) :
    spelledSize (pieces ++ [piece]) = spelledSize pieces + (piece.utf8ByteSize + 1) := by
  induction pieces with
  | nil => simp [spelledSize]
  | cons first rest ih =>
    rw [List.cons_append, spelledSize, ih, spelledSize]
    omega

theorem utf8ByteSize_text_le {path path' : Path} (h : path.pieces.Sublist path'.pieces)
    (present : path.pieces ≠ []) : path.text.utf8ByteSize ≤ path'.text.utf8ByteSize := by
  have present' : path'.pieces ≠ [] := fun hnil ↦ present (List.sublist_nil.1 (hnil ▸ h))
  apply Nat.le_of_add_le_add_right
  calc
    path.text.utf8ByteSize + 1 = spelledSize path.pieces := utf8ByteSize_text present
    _ ≤ spelledSize path'.pieces := spelledSize_le h
    _ = path'.text.utf8ByteSize + 1 := (utf8ByteSize_text present').symm

theorem mem_text {path : Path} {c : Char} (hc : c ≠ '/') :
    c ∈ path.text.toList ↔ ∃ piece ∈ path.pieces, c ∈ piece.toList := by
  obtain ⟨pieces⟩ := path
  rw [text]
  induction pieces with
  | nil => simp
  | cons first rest ih =>
    cases rest with
    | nil => simp
    | cons second rest =>
      rw [String.intercalate_cons_cons, String.toList_append, String.toList_append,
        List.mem_append, List.mem_append, ih, List.exists_mem_cons_iff _ first]
      simp [hc]

theorem holdsNul_eq_false_iff {path : Path} :
    Disk.holdsNul path = false ↔ ∀ piece ∈ path.pieces, '\x00' ∉ piece.toList := by
  have hnul : '\x00' ≠ '/' := by decide
  rw [Disk.holdsNul, List.contains_eq_mem, decide_eq_false_iff_not, mem_text hnul]
  simp

theorem accepted_iff {path : Path} :
    Disk.refusal? path = none ↔
      Disk.holdsNul path = false ∧ path ≠ empty ∧ path.text.utf8ByteSize ≤ longestPath := by
  cases hnul : Disk.holdsNul path with
  | true => simp [Disk.refusal?, hnul]
  | false =>
    rw [Disk.refusal?, hnul, if_neg (by decide)]
    by_cases hempty : path = empty
    · simp [hempty]
    · simp [hempty]

/-- A path made of pieces of an accepted one. -/
theorem accepted_of_sublist {path path' : Path} (h : Disk.refusal? path = none)
    (hsub : path'.pieces.Sublist path.pieces) (present : path'.pieces ≠ [])
    (nonempty : path' ≠ empty) : Disk.refusal? path' = none := by
  obtain ⟨hnul, -, hsize⟩ := accepted_iff.1 h
  rw [holdsNul_eq_false_iff] at hnul
  exact accepted_iff.2 ⟨holdsNul_eq_false_iff.2 fun piece hpiece ↦ hnul piece (hsub.subset hpiece),
    nonempty, (utf8ByteSize_text_le hsub present).trans hsize⟩

theorem ne_empty_of_isAbsolute {path : Path} (h : path.isAbsolute = true) : path ≠ empty := by
  rintro rfl
  cases h

theorem refusal?_eq_none {path : Path} (h : path.isAbsolute = true) :
    Disk.refusal? path = none ↔
      Disk.holdsNul path = false ∧ path.text.utf8ByteSize ≤ longestPath := by
  rw [accepted_iff, and_iff_right (ne_empty_of_isAbsolute h)]

/-- The pieces that name something. -/
def proper (pieces : List String) : List String :=
  pieces.filter (!isIdle ·)

@[simp]
theorem proper_nil : proper [] = [] := rfl

theorem proper_cons_of_idle {piece : String} (h : isIdle piece = true) (pieces : List String) :
    proper (piece :: pieces) = proper pieces := by
  simp [proper, h]

theorem proper_cons_of_name {piece : String} (h : isIdle piece = false) (pieces : List String) :
    proper (piece :: pieces) = piece :: proper pieces := by
  simp [proper, h]

@[simp]
theorem proper_append (pieces pieces' : List String) :
    proper (pieces ++ pieces') = proper pieces ++ proper pieces' :=
  List.filter_append pieces pieces'

theorem proper_of_forall {pieces : List String} (h : ∀ piece ∈ pieces, isIdle piece = false) :
    proper pieces = pieces := by
  rw [proper, List.filter_eq_self]
  intro piece hpiece
  rw [h piece hpiece, Bool.not_false]

theorem isIdle_of_mem_proper {pieces : List String} {piece : String} (h : piece ∈ proper pieces) :
    isIdle piece = false := by
  simpa using (List.mem_filter.1 h).2

theorem filterMap_component?_eq {pieces names : List String} :
    pieces.filterMap component? = names.map .name ↔ proper pieces = names ∧ ".." ∉ pieces := by
  induction pieces generalizing names with
  | nil => cases names <;> simp
  | cons piece pieces ih =>
    cases hidle : isIdle piece with
    | true =>
      have hup : ".." ≠ piece := by
        rintro rfl
        cases hidle
      have hnone : component? piece = none := by rw [component?, if_pos hidle]
      rw [List.filterMap_cons_none hnone, ih, proper_cons_of_idle hidle, List.mem_cons]
      simp [hup]
    | false =>
      rw [proper_cons_of_name hidle, List.mem_cons]
      by_cases hup : piece = ".."
      · have hsome : component? piece = some .up := by rw [hup]; rfl
        rw [List.filterMap_cons_some hsome]
        cases names <;> simp [hup]
      · have hsome : component? piece = some (.name piece) := by simp [component?, hidle, hup]
        rw [List.filterMap_cons_some hsome]
        cases names with
        | nil => simp
        | cons name names => simp [ih, Ne.symm hup, and_assoc]

theorem exists_of_isAbsolute {path : Path} (h : path.isAbsolute = true) :
    ∃ first rest, path = ⟨"" :: first :: rest⟩ := by
  obtain ⟨pieces⟩ := path
  cases pieces with
  | nil => cases h
  | cons head pieces =>
    cases pieces with
    | nil => simp [isAbsolute] at h
    | cons first rest =>
      have hhead : head = "" := by
        have hboth := Bool.and_eq_true_iff.1 h
        simpa using hboth.1
      exact ⟨first, rest, by rw [hhead]⟩

/-- The path is absolute, does not climb, and goes through the names. -/
structure Denotes (path : Path) (names : List String) : Prop where
  absolute : path.isAbsolute = true
  proper : proper path.pieces = names
  level : ".." ∉ path.pieces

/-- Besides, no operation on files refuses the path or one of its names. -/
structure Spells (path : Path) (names : List String) : Prop extends path.Denotes names where
  accepted : Disk.refusal? path = none
  short : ∀ name ∈ names, name.utf8ByteSize ≤ longestName

/-- The last piece of the path is a name of an entry. -/
def EndsInName (path : Path) : Prop :=
  ∃ init last, path.pieces = init ++ [last] ∧ isIdle last = false

/-- Nothing stands behind the last name. -/
def Tidy (path : Path) : Prop :=
  path = rootPath ∨ path.EndsInName

namespace Denotes

variable {path : Path} {names : List String}

theorem isIdle_eq_false (h : path.Denotes names) {name : String} (hname : name ∈ names) :
    isIdle name = false :=
  isIdle_of_mem_proper (h.proper ▸ hname)

theorem ne_up (h : path.Denotes names) {name : String} (hname : name ∈ names) : name ≠ ".." := by
  rintro rfl
  rw [← h.proper] at hname
  exact h.level (List.mem_of_mem_filter hname)

theorem components (h : path.Denotes names) : path.components = .root :: names.map .name := by
  obtain ⟨first, rest, heq⟩ := exists_of_isAbsolute h.absolute
  have hpieces := filterMap_component?_eq.2 ⟨h.proper, h.level⟩
  rw [heq, List.filterMap_cons_none (by decide)] at hpieces
  rw [Path.components, body, anchor, if_pos h.absolute, heq, List.tail_cons, hpieces]
  rfl

end Denotes

namespace Spells

variable {path : Path} {names : List String}

theorem holdsNul_eq_false (h : path.Spells names) : Disk.holdsNul path = false :=
  (accepted_iff.1 h.accepted).1

/-- A path made of pieces of one that spells names. -/
theorem of_sublist (h : path.Spells names) {path' : Path} {names' : List String}
    (absolute : path'.isAbsolute = true) (hsub : path'.pieces.Sublist path.pieces)
    (proper : Path.proper path'.pieces = names') : path'.Spells names' where
  absolute := absolute
  proper := proper
  level := fun hup ↦ h.level (hsub.subset hup)
  accepted := by
    have hne : path'.pieces ≠ [] := by
      intro hnil
      rw [isAbsolute, hnil] at absolute
      cases absolute
    exact accepted_of_sublist h.accepted hsub hne (ne_empty_of_isAbsolute absolute)
  short := by
    intro name hname
    have hsubset : names' ⊆ names := by
      rw [← proper, ← h.proper]
      exact (hsub.filter _).subset
    exact h.short name (hsubset hname)

end Spells

theorem rootPath_spells : rootPath.Spells [] where
  absolute := rfl
  proper := rfl
  level := by decide
  accepted := rfl
  short := by simp

theorem EndsInName.endsOpen_eq_false {path : Path} (h : path.EndsInName) :
    path.endsOpen = false := by
  obtain ⟨init, last, hpieces, hlast⟩ := h
  have hne : last ≠ "" := by
    rintro rfl
    cases hlast
  simp [endsOpen, hpieces, hne]

/-! ## Components -/

theorem denotes_of_components {path : Path} {names : List String}
    (h : path.components = .root :: names.map .name) : path.Denotes names := by
  have hanchor : path.anchor = .root := by
    cases hanchor : path.anchor with
    | root => rfl
    | here => simp [components, hanchor, Anchor.components] at h
    | none =>
      have hmem : Component.root ∈ path.body.filterMap component? := by
        rw [components, hanchor, Anchor.components, List.nil_append] at h
        rw [h]
        exact List.mem_cons_self
      obtain ⟨piece, -, hpiece⟩ := List.mem_filterMap.1 hmem
      unfold component? at hpiece
      split at hpiece
      · cases hpiece
      · split at hpiece <;> simp at hpiece
  have habsolute : path.isAbsolute = true := by
    unfold anchor at hanchor
    split at hanchor
    · assumption
    · split at hanchor <;> cases hanchor
  obtain ⟨first, rest, heq⟩ := exists_of_isAbsolute habsolute
  rw [components, hanchor, Anchor.components, List.singleton_append, List.cons.injEq, body,
    hanchor, heq] at h
  obtain ⟨hproper, hlevel⟩ := filterMap_component?_eq.1 h.2
  refine ⟨habsolute, ?_, ?_⟩
  · rw [heq, proper_cons_of_idle (by decide)]
    exact hproper
  · rw [heq, List.mem_cons, not_or]
    exact ⟨by decide, hlevel⟩

theorem relative_of_components {path : Path} {names : List String}
    (h : path.components = names.map .name) :
    path.isAbsolute = false ∧ proper path.pieces = names ∧ ".." ∉ path.pieces := by
  have hanchor : path.anchor = .none := by
    cases hanchor : path.anchor with
    | none => rfl
    | root =>
      rw [components, hanchor, Anchor.components] at h
      cases names <;> simp at h
    | here =>
      rw [components, hanchor, Anchor.components] at h
      cases names <;> simp at h
  have hrelative : path.isAbsolute = false := by
    rw [anchor] at hanchor
    cases habsolute : path.isAbsolute with
    | false => rfl
    | true =>
      rw [habsolute, if_pos rfl] at hanchor
      cases hanchor
  rw [components, hanchor, Anchor.components, List.nil_append, body, hanchor] at h
  exact ⟨hrelative, filterMap_component?_eq.1 h⟩

/-- What joining keeps of the first path. -/
def stem (base : Path) : List String :=
  if base.endsOpen then base.pieces.dropLast else base.pieces

theorem join_of_relative (base : Path) {path : Path} (h : path.isAbsolute = false) :
    base.join path = ⟨base.stem ++ path.pieces⟩ := by
  rw [join, if_neg (by rw [h]; decide), stem]
  split <;> rfl

theorem dropLast_append_empty {base : Path} (h : base.endsOpen = true) :
    base.pieces = base.pieces.dropLast ++ [""] := by
  rw [endsOpen, decide_eq_true_eq] at h
  exact (List.dropLast_append_getLast? "" h).symm

theorem proper_stem (base : Path) : proper base.stem = proper base.pieces := by
  rw [stem]
  split
  · next h =>
    nth_rewrite 2 [dropLast_append_empty h]
    rw [proper_append, proper_cons_of_idle (by decide), proper_nil, List.append_nil]
  · rfl

theorem stem_subset (base : Path) : base.stem ⊆ base.pieces := by
  rw [stem]
  split
  · exact List.dropLast_subset _
  · exact fun _ h ↦ h

theorem isAbsolute_cons_append (first : String) (rest : List String) {pieces : List String}
    (present : pieces ≠ []) :
    (⟨first :: rest ++ pieces⟩ : Path).isAbsolute = decide (first = "") := by
  simp [isAbsolute, present]

theorem isAbsolute_join (base : Path) {path : Path} (relative : path.isAbsolute = false)
    (present : path.pieces ≠ []) : (base.join path).isAbsolute = base.isAbsolute := by
  rw [join_of_relative base relative]
  obtain ⟨pieces⟩ := base
  match pieces with
  | [] => exact relative
  | [single] =>
    by_cases hempty : single = ""
    · rw [hempty]
      exact relative
    · have hstem : stem ⟨[single]⟩ = [single] := by simp [stem, endsOpen, hempty]
      rw [hstem, isAbsolute_cons_append single [] present]
      simp [isAbsolute, hempty]
  | first :: second :: rest =>
    have hstem : ∃ kept, stem ⟨first :: second :: rest⟩ = first :: kept := by
      rw [stem]
      split
      · exact ⟨_, List.dropLast_cons_cons⟩
      · exact ⟨_, rfl⟩
    obtain ⟨kept, hkept⟩ := hstem
    rw [hkept, isAbsolute_cons_append first kept present]
    simp [isAbsolute]

theorem EndsInName.join {path : Path} (h : path.EndsInName) (relative : path.isAbsolute = false)
    (base : Path) : (base.join path).EndsInName := by
  obtain ⟨init, last, hpieces, hlast⟩ := h
  exact ⟨base.stem ++ init, last, by rw [join_of_relative base relative, hpieces,
    List.append_assoc], hlast⟩

theorem Denotes.join {base path : Path} {names : List String} (hbase : base.Denotes names)
    (relative : path.isAbsolute = false) (present : path.pieces ≠ []) (level : ".." ∉ path.pieces) :
    (base.join path).Denotes (names ++ Path.proper path.pieces) where
  absolute := by rw [isAbsolute_join base relative present, hbase.absolute]
  proper := by
    rw [join_of_relative base relative, proper_append, proper_stem, hbase.proper]
  level := by
    rw [join_of_relative base relative, List.mem_append, not_or]
    exact ⟨fun hup ↦ hbase.level (stem_subset base hup), level⟩

theorem proper_dropIdleEnd (body : List String) : proper (dropIdleEnd body) = proper body := by
  change proper (body.rdropWhile isIdle) = proper body
  induction body using List.reverseRecOn with
  | nil => rfl
  | append_singleton init last ih =>
    cases hlast : isIdle last with
    | true =>
      calc
        proper ((init ++ [last]).rdropWhile isIdle) = proper init := by
          rw [List.rdropWhile_concat_pos _ _ _ hlast, ih]
        _ = proper (init ++ [last]) := by
          rw [proper_append, proper_cons_of_idle hlast, proper_nil, List.append_nil]
    | false => rw [List.rdropWhile_concat_neg _ _ _ (by simp [hlast])]

theorem dropIdleEnd_within (body : List String) : dropIdleEnd body <+: body :=
  List.rdropWhile_prefix isIdle body

theorem dropIdleEnd_eq_concat {body : List String} (h : dropIdleEnd body ≠ []) :
    ∃ init last, dropIdleEnd body = init ++ [last] ∧ isIdle last = false := by
  have hlast : ¬ isIdle ((dropIdleEnd body).getLast h) = true :=
    List.rdropWhile_last_not isIdle body h
  exact ⟨(dropIdleEnd body).dropLast, (dropIdleEnd body).getLast h,
    (List.dropLast_append_getLast h).symm, by simpa using hlast⟩

/-- The parent spells all names but the last. -/
theorem Spells.parent {path : Path} {names : List String} {name : String}
    (h : path.Spells (names ++ [name])) :
    ∃ parent, path.parent? = some parent ∧ parent.Spells names ∧ parent.Tidy := by
  obtain ⟨first, rest, heq⟩ := exists_of_isAbsolute h.absolute
  have hanchor : path.anchor = .root := by rw [anchor, if_pos h.absolute]
  have hbody : path.body = first :: rest := by rw [body, hanchor, heq]; rfl
  have hproper : Path.proper (dropIdleEnd path.body) = names ++ [name] := by
    have hpieces := h.proper
    rw [heq, proper_cons_of_idle (by decide)] at hpieces
    rw [proper_dropIdleEnd, hbody, hpieces]
  have hpresent : dropIdleEnd path.body ≠ [] := by
    intro hnil
    rw [hnil] at hproper
    simp at hproper
  obtain ⟨init, last, hinit, hlast⟩ := dropIdleEnd_eq_concat hpresent
  rw [hinit, proper_append, proper_cons_of_name hlast, proper_nil] at hproper
  have hnames : Path.proper (dropIdleEnd init) = names := by
    rw [proper_dropIdleEnd, List.append_inj_left' hproper rfl]
  have hparent : path.parent? = some (assemble .root (dropIdleEnd init)) := by
    rw [parent?]
    split
    · next hnil => exact absurd hnil hpresent
    · rw [hinit, hanchor, List.dropLast_concat]
  refine ⟨_, hparent, ?_⟩
  by_cases hnone : dropIdleEnd init = []
  · rw [hnone] at hnames ⊢
    rw [← hnames]
    exact ⟨rootPath_spells, .inl rfl⟩
  · obtain ⟨init', last', hinit', hlast'⟩ := dropIdleEnd_eq_concat hnone
    have hassemble : assemble .root (dropIdleEnd init) = ⟨"" :: dropIdleEnd init⟩ := by
      rw [hinit']
      cases init' <;> rfl
    have hsub : (dropIdleEnd init).Sublist (first :: rest) := by
      have hlonger : dropIdleEnd init <+: dropIdleEnd path.body := by
        rw [hinit]
        exact (dropIdleEnd_within init).trans (List.prefix_append init [last])
      rw [← hbody]
      exact (hlonger.trans (dropIdleEnd_within path.body)).sublist
    have habsolute : (⟨"" :: dropIdleEnd init⟩ : Path).isAbsolute = true := by
      simp [isAbsolute, hnone]
    rw [hassemble]
    refine ⟨h.of_sublist habsolute (heq ▸ hsub.cons_cons "") ?_, .inr ?_⟩
    · rw [proper_cons_of_idle (by decide), hnames]
    · exact ⟨"" :: init', last', by rw [hinit', List.cons_append], hlast'⟩

/-! ## Normalising -/

/-- Climbing over names only puts them on the stack. -/
theorem foldl_climb_names (names : List String) (stack : List Component) :
    (names.map Component.name).foldl climb stack = (names.map Component.name).reverse ++ stack := by
  induction names generalizing stack with
  | nil => rfl
  | cons name names ih =>
    rw [List.map_cons, List.foldl_cons, ih, climb, List.reverse_cons, List.append_assoc]
    · rfl
    · simp
    · simp
    · simp

theorem Denotes.normalize {path : Path} {names : List String} (h : path.Denotes names) :
    path.normalize = assemble .root names := by
  have htext : (names.map Component.name).map Component.text = names := by
    rw [List.map_map]
    exact List.map_id names
  calc
    path.normalize = ofComponents ((names.map Component.name).foldl climb [.root]).reverse := by
      rw [Path.normalize, h.components]
      rfl
    _ = ofComponents (.root :: names.map .name) := by
      rw [foldl_climb_names, List.reverse_append, List.reverse_reverse]
      rfl
    _ = assemble .root names := by
      rw [ofComponents, htext]

theorem pieces_assemble_cons (name : String) (names : List String) :
    (assemble .root (name :: names)).pieces = "" :: name :: names := rfl

theorem components_assemble {path : Path} {names : List String} (h : path.Denotes names) :
    (assemble .root names).components = .root :: names.map .name := by
  cases names with
  | nil => rfl
  | cons name names =>
    have hlevel : ".." ∉ name :: names := fun hup ↦ h.ne_up hup rfl
    have hproper := proper_of_forall fun _ hname ↦ h.isIdle_eq_false hname
    have hpieces := filterMap_component?_eq.2 ⟨hproper, hlevel⟩
    rw [components, body, anchor, if_pos (by rfl), pieces_assemble_cons, List.tail_cons, hpieces]
    rfl

theorem Denotes.components_normalize {path : Path} {names : List String} (h : path.Denotes names) :
    path.normalize.components = .root :: names.map .name := by
  rw [h.normalize, components_assemble h]

theorem stripComponents?_eq_some {lead components rest : List Component} :
    stripComponents? lead components = some rest ↔ components = lead ++ rest := by
  induction lead generalizing components with
  | nil => simp [stripComponents?]
  | cons expected lead ih =>
    cases components with
    | nil => simp [stripComponents?]
    | cons component components =>
      rw [stripComponents?, List.cons_append, List.cons.injEq]
      split
      · next hsame => rw [ih, and_iff_right hsame.symm]
      · next hother => exact iff_of_false (by simp) fun heq ↦ hother heq.1.symm

theorem mapM_name?_eq_some {components : List Component} {names : List String} :
    components.mapM Component.name? = some names ↔ components = names.map .name := by
  induction components generalizing names with
  | nil => cases names <;> simp
  | cons component components ih =>
    rw [List.mapM_cons]
    cases component with
    | name text => cases names <;> simp [Component.name?, Option.bind_eq_some_iff, ih, and_comm]
    | root | here | up => cases names <;> simp [Component.name?]

theorem directoriesBetween_eq {base path : Path} {key : List String}
    (h : path.components = base.components ++ key.map .name) :
    Store.directoriesBetween base path = key.dropLast := by
  rw [Store.directoriesBetween, stripComponents?_eq_some.2 h]
  dsimp only
  rw [← List.map_dropLast, mapM_name?_eq_some.2 rfl, Option.getD_some]

theorem Denotes.directoriesBetween {base path : Path} {names key : List String}
    (hbase : base.Denotes names) (hpath : path.Denotes (names ++ key)) :
    Store.directoriesBetween base.normalize path.normalize = key.dropLast := by
  apply directoriesBetween_eq
  rw [hbase.components_normalize, hpath.components_normalize, List.map_append, List.cons_append]

end Path

end DeclaredSource.Storage
