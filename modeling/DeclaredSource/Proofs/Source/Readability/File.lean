import DeclaredSource.Proofs.Source.Readability.Statement

/-!
# The layout of a legible file determines how it is read

Field lists, functions, imports and declarations are determined by their layout as statements are,
except that a field list is determined up to how it is read only.
-/

namespace DeclaredSource.Source

open Text Identifier

theorem Writer.toList_line_one {text : String} (h : text ≠ "") :
    (line 1 text).toList = '\t' :: (text.toList ++ ['\n']) := by
  rw [line, if_neg h, String.toList_append, String.toList_append]
  rfl

/-- Indented lines are determined when the text on each of them is. -/
theorem determines_lines {α β : Type} {S : α → Prop} {layout : α → String} {view : α → β}
    (close : Char) (h : Determines S (fun a ↦ (layout a).toList) view (Opens ['\n']))
    (hne : ∀ a, S a → layout a ≠ "") (hclose : '\t' ≠ close) :
    Determines (fun items : List α ↦ ∀ a ∈ items, S a)
      (fun items ↦ (String.join (items.map fun a ↦ Writer.line 1 (layout a))).toList)
      (List.map view) (Opens [close]) := by
  have hlines : Determines (fun items : List α ↦ ∀ a ∈ items, S a)
      (·.flatMap fun a ↦ (Writer.line 1 (layout a)).toList) (List.map view) (Opens [close]) := by
    refine Determines.repeated '\t' ?_ ?_ ?_
    · intro a b ha hb rest rest' _ _ heq
      have hline {a : α} (ha : S a) (rest : List Char) :
          (Writer.line 1 (layout a)).toList ++ rest =
            '\t' :: ((layout a).toList ++ '\n' :: rest) := by
        rw [Writer.toList_line_one (hne a ha)]
        simp
      rw [hline ha, hline hb, List.cons.injEq] at heq
      obtain ⟨hview, htail⟩ := h ha hb (.cons (by decide) rest) (.cons (by decide) rest') heq.2
      exact ⟨hview, (List.cons.inj htail).2⟩
    · intro a ha
      rw [Writer.toList_line_one (hne a ha)]
      rfl
    · exact fun rest hrest ↦ hrest.ne (by simpa using hclose)
  intro items items' hitems hitems' rest rest' hrest hrest' heq
  simp only [String.toList_join, List.flatMap_map] at heq
  exact hlines hitems hitems' hrest hrest' heq

theorem Field.layout_typed (field : Field) : field.typed.layout = field.layout := by
  obtain ⟨name, type⟩ := field
  cases name <;> cases type <;> rfl

theorem Field.toList_layout_full (name : String) (type : Expr) (rest : List Char) :
    (Field.layout ⟨some name, some type⟩).toList ++ rest =
      name.toList ++ ' ' :: (type.layout.toList ++ rest) := by
  simp [layout]

/-- A name before a type is not read as a type. -/
theorem Field.full_ne_type {name : String} {type type' : Expr} (valid : isValid name = true)
    (reference : type'.IsReference) {rest rest' : List Char} (hrest' : Opens [',', ')'] rest') :
    (Field.layout ⟨some name, some type⟩).toList ++ rest ≠ type'.layout.toList ++ rest' := by
  intro heq
  rw [toList_layout_full] at heq
  have hspace (after : List Char) : EndsReference (' ' :: after) :=
    endsReference_cons (by decide) (by decide) after
  obtain ⟨-, htail⟩ := Expr.reference_unique (.ident valid) reference (hspace _)
    (endsReference_of_opens hrest' (by decide) (by decide)) heq
  exact hrest'.ne (c := ' ') (by decide) (by rw [← htail]; rfl)

theorem Field.unique :
    Determines Field.Legible (fun f ↦ f.layout.toList) Field.typed (Opens [',', ')']) := by
  have hends {rest : List Char} (h : Opens [',', ')'] rest) : EndsReference rest :=
    endsReference_of_opens h (by decide) (by decide)
  -- A name that stands alone is laid out as the type that it is read as.
  have htyped {f : Field} (h : f.Legible) :
      (∃ name type, isValid name = true ∧ type.IsReference ∧ f.typed = ⟨some name, some type⟩) ∨
        ∃ type, type.IsReference ∧ f.typed = ⟨none, some type⟩ := by
    cases h with
    | full valid reference => exact .inl ⟨_, _, valid, reference, rfl⟩
    | name valid => exact .inr ⟨_, .ident valid, rfl⟩
    | type reference => exact .inr ⟨_, reference, rfl⟩
  intro a b ha hb rest rest' hrest hrest' heq
  dsimp only at heq
  rw [← layout_typed a, ← layout_typed b] at heq
  rcases htyped ha with ⟨name, type, valid, reference, hfull⟩ | ⟨type, reference, htype⟩
  · rcases htyped hb with ⟨name', type', valid', reference', hfull'⟩ | ⟨type', reference', htype'⟩
    · rw [hfull, hfull', toList_layout_full, toList_layout_full] at heq
      have hspace (after : List Char) : Stops continues (' ' :: after) :=
        stops_cons (by decide) after
      obtain ⟨hname, htail⟩ := name_unique valid valid' (hspace _) (hspace _) heq
      obtain ⟨hsame, htail⟩ := Expr.reference_unique reference reference' (hends hrest)
        (hends hrest') (List.cons.inj htail).2
      rw [id_eq, id_eq] at hsame
      exact ⟨by rw [hfull, hfull', hname, hsame], htail⟩
    · rw [hfull, htype'] at heq
      exact (full_ne_type valid reference' hrest' heq).elim
  · rcases htyped hb with ⟨name', type', valid', reference', hfull'⟩ | ⟨type', reference', htype'⟩
    · rw [htype, hfull'] at heq
      exact (full_ne_type valid' reference hrest heq.symm).elim
    · rw [htype, htype'] at heq
      obtain ⟨hsame, htail⟩ :=
        Expr.reference_unique reference reference' (hends hrest) (hends hrest') heq
      rw [id_eq, id_eq] at hsame
      exact ⟨by rw [htype, htype', hsame], htail⟩

theorem Field.Legible.leads {f : Field} (h : f.Legible) : Leads f.layout.toList := by
  cases h with
  | @full name type valid reference =>
    refine leads_of_letterFirst ?_
    rw [← List.append_nil (String.toList _), toList_layout_full]
    exact letterFirst_append (letterFirst_name valid) _
  | name valid => exact leads_of_letterFirst (letterFirst_name valid)
  | type reference => exact leads_of_letterFirst reference.letterFirst

theorem Field.list_unique :
    Determines Field.ListLegible (fun fields ↦ (Field.listLayout fields).toList) Field.asRead
      (Opens [')']) := by
  have hlist : Determines (fun fields ↦ ∀ f ∈ fields, f.Legible)
      (separated [',', ' '] fun f : Field ↦ f.layout.toList) (List.map Field.typed)
      (Opens [')']) :=
    Determines.separated unique (by decide) fun f hf rest ↦
      (hf.leads.append rest).not_opens (by decide)
  intro fields fields' hfields hfields' rest rest' hrest hrest' heq
  simp only [listLayout, toList_intercalate_layout] at heq
  obtain ⟨htyped, htail⟩ := hlist hfields.each hfields'.each hrest hrest' heq
  exact ⟨asRead_eq_of_typed hfields hfields' htyped, htail⟩

/-! ## Functions -/

/-- The forms that a list of results takes: nothing, one type, or fields between parentheses. -/
inductive Func.ResultsForm (results : List Field) : List Char → Prop
  | none (h : results = []) : ResultsForm results []
  | single {type : Expr} (reference : type.IsReference) (h : results = [⟨.none, some type⟩]) :
    ResultsForm results (' ' :: type.layout.toList)
  | listed : ResultsForm results (' ' :: '(' :: ((Field.listLayout results).toList ++ [')']))

theorem Func.resultsForm {results : List Field} (h : Field.ListLegible results) :
    ResultsForm results (resultsLayout results).toList := by
  unfold resultsLayout
  split
  · exact .none rfl
  · next type =>
    cases h.each _ List.mem_cons_self with
    | type reference =>
      rw [String.toList_append]
      exact .single reference rfl
  · have hlisted : (" (" ++ Field.listLayout results ++ ")").toList =
        ' ' :: '(' :: ((Field.listLayout results).toList ++ [')']) := by simp
    rw [hlisted]
    exact .listed

/-- A type is not read where a mark that is no letter stands. -/
theorem Expr.IsReference.ne_mark {type : Expr} (h : type.IsReference) {mark : Char}
    (hmark : isLetter mark = false) (rest after : List Char) :
    type.layout.toList ++ rest ≠ mark :: after := by
  have hfirst : Source.letterFirst [mark] = some false := by simp [Source.letterFirst, hmark]
  exact ne_of_letterFirst h.letterFirst hfirst

/-- Results are followed by the space and the brace that begin a body. -/
theorem Func.results_unique : Determines Field.ListLegible
    (fun results ↦ (resultsLayout results).toList) Field.asRead
    fun rest ↦ ∃ after, rest = ' ' :: '\x7b' :: after := by
  rintro results results' hresults hresults' _ _ ⟨after, rfl⟩ ⟨after', rfl⟩ heq
  have hform := resultsForm hresults
  have hform' := resultsForm hresults'
  dsimp only at heq
  generalize (resultsLayout results).toList = form at hform heq
  generalize (resultsLayout results').toList = form' at hform' heq
  cases hform with
  | none h =>
    cases hform' with
    | none h' => exact ⟨by rw [h, h'], heq⟩
    | single reference h' =>
      exact (reference.ne_mark (by decide) _ _ (List.cons.inj heq).2.symm).elim
    | listed => simp at heq
  | single reference h =>
    cases hform' with
    | none h' => exact (reference.ne_mark (by decide) _ _ (List.cons.inj heq).2).elim
    | single reference' h' =>
      have hspace (after : List Char) : EndsReference (' ' :: after) :=
        endsReference_cons (by decide) (by decide) after
      obtain ⟨hsame, htail⟩ :=
        Expr.reference_unique reference reference' (hspace _) (hspace _) (List.cons.inj heq).2
      rw [id_eq, id_eq] at hsame
      exact ⟨by rw [h, h', hsame], htail⟩
    | listed => exact (reference.ne_mark (by decide) _ _ (List.cons.inj heq).2).elim
  | listed =>
    cases hform' with
    | none h' => simp at heq
    | single reference h' =>
      exact (reference.ne_mark (by decide) _ _ (List.cons.inj heq).2.symm).elim
    | listed =>
      simp only [List.cons_append, List.append_assoc, List.cons.injEq, true_and] at heq
      obtain ⟨hsame, htail⟩ := Field.list_unique hresults hresults'
        (.cons (by decide) _) (.cons (by decide) _) heq
      exact ⟨hsame, (List.cons.inj htail).2⟩

theorem Func.toList_bodyLayout (body : List Stmt) (rest : List Char) :
    (bodyLayout body).toList ++ rest = ' ' :: '\x7b' ::
      if body = [] then '\x7d' :: rest
      else '\n' :: ((String.join (body.map fun stmt ↦ Writer.line 1 stmt.layout)).toList ++
        '\x7d' :: rest) := by
  cases body with
  | nil => rfl
  | cons first others =>
    rw [if_neg (List.cons_ne_nil _ _), bodyLayout, String.toList_append, String.toList_append]
    · simp
    · simp

theorem Func.body_unique : Determines (fun body ↦ ∀ stmt ∈ body, stmt.Legible)
    (fun body ↦ (bodyLayout body).toList) id fun _ ↦ True := by
  intro body body' hbody hbody' rest rest' _ _ heq
  simp only [toList_bodyLayout, List.cons.injEq, true_and] at heq
  by_cases hnone : body = []
  · by_cases hnone' : body' = []
    · rw [if_pos hnone, if_pos hnone'] at heq
      exact ⟨by rw [hnone, hnone'], (List.cons.inj heq).2⟩
    · rw [if_pos hnone, if_neg hnone'] at heq
      simp at heq
  · by_cases hnone' : body' = []
    · rw [if_neg hnone, if_pos hnone'] at heq
      simp at heq
    · rw [if_neg hnone, if_neg hnone'] at heq
      have hlines := determines_lines '\x7d' Stmt.unique (fun _ ↦ Stmt.Legible.ne_empty)
        (by decide)
      obtain ⟨hsame, htail⟩ := hlines hbody hbody' (.cons (by decide) rest)
        (.cons (by decide) rest') (List.cons.inj heq).2
      rw [List.map_id, List.map_id] at hsame
      exact ⟨hsame, (List.cons.inj htail).2⟩

theorem Func.toList_layout (func : Func) (rest : List Char) :
    func.layout.toList ++ rest = "func ".toList ++ (func.name.toList ++
      '(' :: ((Field.listLayout func.params).toList ++
        ')' :: ((resultsLayout func.results).toList ++
          ((bodyLayout func.body).toList ++ '\n' :: rest)))) := by
  simp [layout]

theorem Func.unique :
    Determines Func.Legible (fun func ↦ func.layout.toList) Func.asRead fun _ ↦ True := by
  intro a b ha hb rest rest' _ _ heq
  simp only [toList_layout, List.append_cancel_left_eq] at heq
  have hparen (after : List Char) : Stops continues ('(' :: after) := stops_cons (by decide) after
  have hbrace (func : Func) (after : List Char) :
      ∃ after', (bodyLayout func.body).toList ++ after = ' ' :: '\x7b' :: after' := by
    rw [toList_bodyLayout]
    exact ⟨_, rfl⟩
  obtain ⟨hname, heq⟩ := name_unique ha.name hb.name (hparen _) (hparen _) heq
  obtain ⟨hparams, heq⟩ := Field.list_unique ha.params hb.params (.cons (by decide) _)
    (.cons (by decide) _) (List.cons.inj heq).2
  obtain ⟨hresults, heq⟩ := results_unique ha.results hb.results (hbrace a _) (hbrace b _)
    (List.cons.inj heq).2
  obtain ⟨hbody, heq⟩ := body_unique ha.body hb.body trivial trivial heq
  rw [id_eq, id_eq] at hbody
  exact ⟨by rw [asRead, asRead, hname, hparams, hresults, hbody], (List.cons.inj heq).2⟩

theorem ImportSpec.toList_layout_named (name : String) (path : Literal) (rest : List Char) :
    (layout ⟨some name, path⟩).toList ++ rest =
      name.toList ++ ' ' :: (path.text.toList ++ rest) := by
  simp [layout]

theorem ImportSpec.unique :
    Determines ImportSpec.Legible (fun spec ↦ spec.layout.toList) id fun _ ↦ True := by
  have hpath {name : Option String} {path : Literal} (h : ImportSpec.Legible ⟨name, path⟩) :
      path.Legible ∧ letterFirst path.text.toList = some false := by
    obtain ⟨text, unquoted, rfl⟩ := h.path
    exact ⟨.string unquoted, Literal.letterFirst (.string unquoted)⟩
  have hquoted {path path' : Literal} {name name' : Option String}
      (h : ImportSpec.Legible ⟨name, path⟩) (h' : ImportSpec.Legible ⟨name', path'⟩)
      {rest rest' : List Char} (heq : path.text.toList ++ rest = path'.text.toList ++ rest') :
      path = path' ∧ rest = rest' := by
    obtain ⟨text, unquoted, hstring⟩ := h.path
    obtain ⟨text', unquoted', hstring'⟩ := h'.path
    dsimp only at hstring hstring'
    rw [hstring, hstring', toList_quoted, toList_quoted, List.cons.injEq] at heq
    obtain ⟨hsame, htail⟩ := quoted_unique unquoted unquoted' heq.2
    rw [String.toList_inj] at hsame
    exact ⟨by rw [hstring, hstring', hsame], htail⟩
  rintro ⟨name, path⟩ ⟨name', path'⟩ ha hb rest rest' _ _ heq
  cases name with
  | none =>
    cases name' with
    | none =>
      obtain ⟨hsame, htail⟩ := hquoted ha hb heq
      exact ⟨by rw [hsame], htail⟩
    | some name' =>
      dsimp only at heq
      rw [toList_layout_named] at heq
      exact (ne_of_letterFirst (letterFirst_name (hb.name _ rfl)) (hpath ha).2 heq.symm).elim
  | some name =>
    dsimp only at heq
    rw [toList_layout_named] at heq
    cases name' with
    | none =>
      exact (ne_of_letterFirst (letterFirst_name (ha.name _ rfl)) (hpath hb).2 heq).elim
    | some name' =>
      rw [toList_layout_named] at heq
      have hspace (after : List Char) : Stops continues (' ' :: after) :=
        stops_cons (by decide) after
      obtain ⟨hname, htail⟩ :=
        name_unique (ha.name _ rfl) (hb.name _ rfl) (hspace _) (hspace _) heq
      obtain ⟨hsame, htail⟩ := hquoted ha hb (List.cons.inj htail).2
      exact ⟨by rw [hname, hsame], htail⟩

theorem ImportSpec.Legible.leads {spec : ImportSpec} (h : spec.Legible) :
    Leads spec.layout.toList := by
  obtain ⟨name, path⟩ := spec
  cases name with
  | some name =>
    refine leads_of_letterFirst ?_
    rw [← List.append_nil (String.toList _), toList_layout_named]
    exact letterFirst_append (letterFirst_name (h.name _ rfl)) _
  | none =>
    obtain ⟨text, unquoted, hpath⟩ := h.path
    rw [ImportSpec.layout, hpath]
    exact Literal.leads (.string unquoted)

/-- The two forms of an import declaration, after the word that begins it. -/
inductive Decl.ImportsForm (specs : List ImportSpec) : List Char → Prop
  | single {spec : ImportSpec} (h : specs = [spec]) :
    ImportsForm specs (spec.layout.toList ++ ['\n'])
  | group : ImportsForm specs ("(\n".toList ++
    ((String.join (specs.map fun spec ↦ Writer.line 1 spec.layout)).toList ++ ")\n".toList))

theorem Decl.importsForm (specs : List ImportSpec) :
    ∃ form, ImportsForm specs form ∧
      (Decl.imports specs).layout.toList = "import ".toList ++ form := by
  unfold layout
  split
  · next single heq =>
    cases heq
    refine ⟨_, .single rfl, ?_⟩
    simp
  · next specs' _ heq =>
    cases heq
    refine ⟨_, .group, ?_⟩
    simp
  · next heq => cases heq

theorem Decl.imports_unique : Determines (fun specs ↦ ∀ spec ∈ specs, spec.Legible)
    (fun specs ↦ (Decl.imports specs).layout.toList) id fun _ ↦ True := by
  intro specs specs' hspecs hspecs' rest rest' _ _ heq
  obtain ⟨form, hform, hlayout⟩ := importsForm specs
  obtain ⟨form', hform', hlayout'⟩ := importsForm specs'
  dsimp only at heq
  rw [hlayout, hlayout', List.append_assoc, List.append_assoc, List.append_cancel_left_eq] at heq
  have hparen {spec : ImportSpec} (h : spec.Legible) (rest after : List Char) :
      spec.layout.toList ++ rest ≠ '(' :: after := by
    intro heq
    have hopens : Opens ['('] (spec.layout.toList ++ rest) := heq ▸ .cons (by decide) after
    exact (h.leads.append rest).not_opens (by decide) hopens
  cases hform with
  | @single spec h =>
    have hspec : spec.Legible := hspecs spec (by rw [h]; exact List.mem_cons_self)
    rw [List.append_assoc] at heq
    cases hform' with
    | @single spec' h' =>
      have hspec' : spec'.Legible := hspecs' spec' (by rw [h']; exact List.mem_cons_self)
      rw [List.append_assoc] at heq
      obtain ⟨hsame, htail⟩ := ImportSpec.unique hspec hspec' trivial trivial heq
      rw [id_eq, id_eq] at hsame
      exact ⟨by rw [h, h', hsame], (List.cons.inj htail).2⟩
    | group => exact (hparen hspec _ _ heq).elim
  | group =>
    cases hform' with
    | @single spec' h' =>
      have hspec' : spec'.Legible := hspecs' spec' (by rw [h']; exact List.mem_cons_self)
      rw [List.append_assoc spec'.layout.toList] at heq
      exact (hparen hspec' _ _ heq.symm).elim
    | group =>
      simp only [List.append_assoc, List.append_cancel_left_eq] at heq
      have hspec : Determines ImportSpec.Legible (fun spec ↦ spec.layout.toList) id
          (Opens ['\n']) :=
        fun _ _ ha hb _ _ _ _ heq ↦ ImportSpec.unique ha hb trivial trivial heq
      have hlines := determines_lines ')' hspec (fun _ h ↦ h.leads.ne_empty) (by decide)
      obtain ⟨hsame, htail⟩ := hlines hspecs hspecs' (.cons (by decide) _) (.cons (by decide) _) heq
      rw [List.map_id, List.map_id] at hsame
      have hrest : ")\n".toList ++ rest = ")\n".toList ++ rest' := htail
      exact ⟨hsame, List.append_cancel_left hrest⟩

/-- The words that begin declarations of the two kinds differ. -/
theorem Decl.imports_ne_func (specs : List ImportSpec) (func : Func) (rest rest' : List Char) :
    (Decl.imports specs).layout.toList ++ rest ≠ (Decl.func func).layout.toList ++ rest' := by
  obtain ⟨form, -, hlayout⟩ := importsForm specs
  rw [hlayout, layout, Func.toList_layout]
  simp

theorem Decl.unique :
    Determines Decl.Legible (fun decl ↦ decl.layout.toList) Decl.asRead fun _ ↦ True := by
  intro a b ha hb rest rest' _ _ heq
  cases ha with
  | imports hspecs =>
    cases hb with
    | imports hspecs' =>
      obtain ⟨hsame, htail⟩ := imports_unique hspecs hspecs' trivial trivial heq
      rw [id_eq, id_eq] at hsame
      exact ⟨by rw [hsame], htail⟩
    | func hfunc' => exact (imports_ne_func _ _ _ _ heq).elim
  | func hfunc =>
    cases hb with
    | imports hspecs' => exact (imports_ne_func _ _ _ _ heq.symm).elim
    | func hfunc' =>
      obtain ⟨hsame, htail⟩ := Func.unique hfunc hfunc' trivial trivial heq
      exact ⟨congrArg Decl.func hsame, htail⟩

theorem File.toList_layout (file : File) :
    file.layout.toList = "package ".toList ++ (file.package.toList ++
      '\n' :: file.decls.flatMap fun decl ↦ '\n' :: decl.layout.toList) := by
  simp [layout, String.toList_join, List.flatMap_map]

/-- Legible files that print alike read alike. -/
theorem File.asRead_eq_of_print {a b : File} (ha : a.Legible) (hb : b.Legible)
    (h : a.print = b.print) : a.asRead = b.asRead := by
  have hdecls : Determines (fun decls ↦ ∀ decl ∈ decls, decl.Legible)
      (·.flatMap fun decl ↦ '\n' :: decl.layout.toList) (List.map Decl.asRead) (· = []) := by
    refine Determines.repeated '\n' ?_ (fun _ _ ↦ rfl) ?_
    · intro a b ha hb rest rest' _ _ heq
      exact Decl.unique ha hb trivial trivial (List.cons.inj heq).2
    · rintro _ rfl
      simp
  have hnewline (after : List Char) : Stops continues ('\n' :: after) :=
    stops_cons (by decide) after
  rw [print_eq_layout, print_eq_layout, ← String.toList_inj, toList_layout, toList_layout,
    List.append_cancel_left_eq] at h
  obtain ⟨hpackage, htail⟩ := name_unique ha.package hb.package (hnewline _) (hnewline _) h
  have heq := (List.cons.inj htail).2
  rw [← List.append_nil (List.flatMap _ a.decls), ← List.append_nil (List.flatMap _ b.decls)] at heq
  obtain ⟨hsame, -⟩ := hdecls ha.decls hb.decls rfl rfl heq
  rw [asRead, asRead, hpackage, hsame]

end DeclaredSource.Source
