import DeclaredSource.Proofs.Rendering.Coherence
import DeclaredSource.Proofs.Rendering.Readability
import Mathlib.Data.List.TakeDrop
import Mathlib.Data.List.TakeWhile

/-!
# The checks of an outline

An outline stands for a list of checks, in the order in which its parts are written: of names, of
the paths of imports, and of field lists as a whole. Rendering comes to going through that list. It
fails as the first check that does not pass, and when all of them pass it builds a tree that spells
the identifiers of the outline, each of which was checked unless it is an identifier literal.
-/

namespace DeclaredSource

namespace Outline

/-- A text that is to stand in a tree as an identifier. -/
inductive Spelling where
  | name (text : String)
  | literal (text : String)
  deriving DecidableEq

def Spelling.text : Spelling → String
  | .name text => text
  | .literal text => text

def Literal.spellings : Literal → List Spelling
  | .identifier text => [.literal text]
  | .string _ => []
  | .int _ => []

def Selector.spellings (selector : Selector) : List Spelling :=
  selector.base.toList.map .name ++ [.name selector.member]

def Expression.spellings : Expression → List Spelling
  | .call callee arguments => callee.spellings ++ arguments.flatMap Literal.spellings
  | .selector s => s.spellings
  | .literal l => l.spellings
  | .identifier name => [.name name]

def Statement.spellings : Statement → List Spelling
  | .expression e => e.spellings
  | .ret values => values.flatMap Expression.spellings

/-- The whole of a type without a point, and the two sides of the first point of any other. -/
def typeSpellings (type : String) : List Spelling :=
  match Rendering.cutAtPoint? type with
  | some (package, member) => [.name package, .name member]
  | none => [.name type]

def Field.spellings (field : Field) : List Spelling :=
  field.name.toList.map .name ++ field.type.toList.flatMap typeSpellings

def Function.spellings (function : Function) : List Spelling :=
  .name function.name :: (function.params.flatMap Field.spellings ++
    (function.results.flatMap Field.spellings ++ function.body.flatMap Statement.spellings))

def Import.spellings (spec : Import) : List Spelling :=
  spec.localName.toList.map .name

def File.spellings (file : File) : List Spelling :=
  .name file.package :: (file.imports.flatMap Import.spellings ++
    file.functions.flatMap Function.spellings)

end Outline

namespace Source

mutual

def Expr.identifiers : Expr → List String
  | .ident name => [name]
  | .literal _ => []
  | .selector base member => base.identifiers ++ [member]
  | .call callee arguments => callee.identifiers ++ Expr.listIdentifiers arguments

def Expr.listIdentifiers : List Expr → List String
  | [] => []
  | first :: rest => first.identifiers ++ Expr.listIdentifiers rest

end

def Stmt.values : Stmt → List Expr
  | .expr e => [e]
  | .ret values => values

def Stmt.identifiers (stmt : Stmt) : List String :=
  stmt.values.flatMap Expr.identifiers

def Field.identifiers (field : Field) : List String :=
  field.name.toList ++ field.type.toList.flatMap Expr.identifiers

def Func.identifiers (func : Func) : List String :=
  func.name :: (func.params.flatMap Field.identifiers ++
    (func.results.flatMap Field.identifiers ++ func.body.flatMap Stmt.identifiers))

def ImportSpec.identifiers (spec : ImportSpec) : List String :=
  spec.name.toList

def Decl.identifiers : Decl → List String
  | .imports specs => specs.flatMap ImportSpec.identifiers
  | .func f => f.identifiers

def File.identifiers (file : File) : List String :=
  file.package :: file.decls.flatMap Decl.identifiers

end Source

namespace Rendering

open FirstFailure Identifier Outline

theorem cutAtPoint?_eq_none_iff {text : String} :
    cutAtPoint? text = none ↔ '.' ∉ text.toList := by
  let inside (c : Char) : Bool := c ≠ '.'
  have hnil : text.toList.dropWhile inside = [] ↔ ∀ c ∈ text.toList, inside c = true :=
    List.dropWhile_eq_nil_iff
  have hinside : (∀ c ∈ text.toList, inside c = true) ↔ '.' ∉ text.toList := by
    simp only [inside, decide_eq_true_eq]
    exact ⟨fun h hpoint ↦ h '.' hpoint rfl, fun h c hc hpoint ↦ h (hpoint ▸ hc)⟩
  rw [cutAtPoint?, List.span_eq_takeWhile_dropWhile, ← hinside, ← hnil]
  cases hafter : text.toList.dropWhile inside with
  | nil => exact iff_of_true rfl rfl
  | cons point rest => exact iff_of_false (Option.some_ne_none _) (List.cons_ne_nil point rest)

theorem cutAtPoint?_eq_some {text before after : String}
    (h : cutAtPoint? text = some (before, after)) :
    '.' ∉ before.toList ∧ before ++ "." ++ after = text := by
  let inside (c : Char) : Bool := c ≠ '.'
  have hcut := List.takeWhile_append_dropWhile (p := inside) (l := text.toList)
  have hhead := List.find?_not_eq_head?_dropWhile (p := inside) text.toList
  rw [cutAtPoint?, List.span_eq_takeWhile_dropWhile] at h
  cases hafter : text.toList.dropWhile inside with
  | nil =>
    rw [hafter] at h
    cases h
  | cons point rest =>
    rw [hafter] at h hcut hhead
    obtain rfl : point = '.' := by simpa [inside] using List.find?_some hhead
    obtain ⟨rfl, rfl⟩ := Prod.mk.inj (Option.some.inj h)
    constructor
    · intro hpoint
      rw [String.toList_ofList] at hpoint
      exact absurd (List.mem_takeWhile_imp hpoint) (by decide)
    · rw [← String.toList_inj]
      refine Eq.trans ?_ hcut
      simp [inside]

inductive Check where
  | identifier (place name : String)
  | importPath (index : Nat) (path : String)
  | fieldParts (place : String) (field : Field)
  | coherence (place : String) (fields : List Field)
  deriving DecidableEq

def Check.failure? : Check → Option Error
  | .identifier place name => (issue? name).map (.invalidIdentifier place name)
  | .importPath index path => if path = "" then some (.emptyImportPath index) else none
  | .fieldParts place field => if field.Vacant then some (.degenerateField place) else none
  | .coherence place fields => if Coherent fields then none else some (.mixedFieldNames place)

theorem failure?_identifier_eq_none {place name : String} :
    (Check.identifier place name).failure? = none ↔ isValid name = true := by
  simp [Check.failure?, isValid]

/-- What the first check that does not pass comes to. -/
def failure? (checks : List Check) : Option Error :=
  checks.findSome? Check.failure?

/-- One check for every spelling that is not a literal. -/
def nameChecks (place : String) (spellings : List Spelling) : List Check :=
  spellings.flatMap fun
    | .name text => [.identifier place text]
    | .literal _ => []

theorem mem_nameChecks {place : String} {spellings : List Spelling} {check : Check} :
    check ∈ nameChecks place spellings ↔
      ∃ text, .name text ∈ spellings ∧ check = .identifier place text := by
  rw [nameChecks, List.mem_flatMap]
  constructor
  · intro ⟨spelling, hspelling, hcheck⟩
    cases spelling with
    | name text => exact ⟨text, hspelling, List.mem_singleton.1 hcheck⟩
    | literal text => cases hcheck
  · intro ⟨text, htext, hcheck⟩
    exact ⟨.name text, htext, List.mem_singleton.2 hcheck⟩

def partsChecks (function : String) (role : Role) (start : Nat) (fields : List Field) :
    List Check :=
  (fields.zipIdx start).map fun (f, index) ↦
    .fieldParts (Place.field role.text index function) f

def fieldListChecks (function : String) (role : Role) (fields : List Field) : List Check :=
  partsChecks function role 0 fields ++ .coherence (Place.fieldList role.text function) fields ::
    fields.zipIdx.flatMap fun (f, index) ↦
      nameChecks (Place.field role.text index function) f.spellings

def importChecks (index : Nat) (spec : Import) : List Check :=
  .importPath index spec.path :: nameChecks (Place.importAlias index) spec.spellings

def functionChecks (index : Nat) (function : Function) : List Check :=
  .identifier (Place.functionName index) function.name ::
    (fieldListChecks function.name .parameter function.params ++
      (fieldListChecks function.name .result function.results ++
        function.body.zipIdx.flatMap fun (s, index) ↦
          nameChecks (Place.statement index function.name) s.spellings))

def checks (outline : Outline.File) : List Check :=
  .identifier Place.packageClause outline.package ::
    (outline.imports.zipIdx.flatMap (fun (spec, index) ↦ importChecks index spec) ++
      outline.functions.zipIdx.flatMap fun (f, index) ↦ functionChecks index f)

theorem failure?_append (first second : List Check) :
    failure? (first ++ second) = (failure? first).or (failure? second) :=
  List.findSome?_append

theorem failure?_eq_none_iff {checks : List Check} :
    failure? checks = none ↔ ∀ check ∈ checks, check.failure? = none :=
  List.findSome?_eq_none_iff

/-! ## Runs that go through checks -/

/-- The identifiers are the ones that are spelled, and those that are not literals are valid. -/
structure Spells (identifiers : List String) (spellings : List Spelling) : Prop where
  same : identifiers = spellings.map Spelling.text
  valid : ∀ name, .name name ∈ spellings → isValid name = true

namespace Spells

theorem nil : Spells [] [] :=
  ⟨rfl, by simp⟩

theorem name {name : String} (h : isValid name = true) : Spells [name] [.name name] :=
  ⟨rfl, by simpa using h⟩

theorem literal (text : String) : Spells [text] [.literal text] :=
  ⟨rfl, by simp⟩

theorem append {first second : List String} {spellings spellings' : List Spelling}
    (h : Spells first spellings) (h' : Spells second spellings') :
    Spells (first ++ second) (spellings ++ spellings') := by
  constructor
  · rw [h.same, h'.same, List.map_append]
  · intro name hname
    rw [List.mem_append] at hname
    exact hname.elim (h.valid name) (h'.valid name)

end Spells

/-- The run fails as the first check that does not pass, and what it ends in otherwise satisfies
`P`. -/
structure Obeys {α : Type} (x : Except Error α) (checks : List Check) (P : α → Prop) : Prop where
  fails : ∀ e, x = .error e ↔ failure? checks = some e
  ends : ∀ a, x = .ok a → P a

namespace Obeys

variable {α β : Type} {x : Except Error α} {first second : List Check} {P : α → Prop}
  {Q : β → Prop}

theorem ok {a : α} (h : P a) : Obeys (.ok a) [] P := by
  constructor
  · simp [failure?]
  · intro b heq
    cases heq
    exact h

theorem error {e : Error} (h : failure? first = some e) (rest : List Check) :
    Obeys (.error e : Except Error α) (first ++ rest) P := by
  constructor
  · simp [failure?_append, h]
  · intro a heq
    cases heq

theorem passed (h : failure? first = none) (hx : Obeys x second P) :
    Obeys x (first ++ second) P := by
  refine ⟨fun e ↦ ?_, hx.ends⟩
  rw [failure?_append, h, Option.none_or]
  exact hx.fails e

theorem failure?_eq_none {a : α} (h : Obeys x first P) (ha : x = .ok a) :
    failure? first = none := by
  rw [Option.eq_none_iff_forall_ne_some]
  intro e he
  cases ha.symm.trans ((h.fails e).2 he)

theorem exists_ok (h : Obeys x first P) (hpassed : failure? first = none) : ∃ a, x = .ok a := by
  cases x with
  | ok a => exact ⟨a, rfl⟩
  | error e => cases hpassed.symm.trans ((h.fails e).1 rfl)

theorem bind {f : α → Except Error β} (h : Obeys x first P)
    (hf : ∀ a, P a → Obeys (f a) second Q) : Obeys (x >>= f) (first ++ second) Q := by
  cases x with
  | error e => exact error ((h.fails e).1 rfl) second
  | ok a => exact passed (h.failure?_eq_none rfl) (hf a (h.ends a rfl))

theorem map {f : α → β} (h : Obeys x first P) (hf : ∀ a, P a → Q (f a)) :
    Obeys (f <$> x) first Q := by
  have hbind : Obeys (x >>= fun a ↦ pure (f a)) (first ++ []) Q :=
    h.bind fun a ha ↦ ok (hf a ha)
  rwa [List.append_nil, bind_pure_comp] at hbind

/-- Going through a list, when every item spells identifiers of its own. -/
theorem mapM {f : α → Except Error β} {checks : α → List Check} {identifiers : β → List String}
    {spellings : α → List Spelling} {xs : List α}
    (h : ∀ x, Obeys (f x) (checks x) fun y ↦ Spells (identifiers y) (spellings x)) :
    Obeys (xs.mapM f) (xs.flatMap checks) fun ys ↦
      Spells (ys.flatMap identifiers) (xs.flatMap spellings) := by
  induction xs with
  | nil => exact ok .nil
  | cons x xs ih =>
    rw [List.mapM_cons]
    refine (h x).bind fun y hy ↦ ih.map fun ys hys ↦ ?_
    rw [List.flatMap_cons, List.flatMap_cons]
    exact hy.append hys

theorem mapM_zipIdx {f : α × Nat → Except Error β} {checks : α × Nat → List Check}
    {identifiers : β → List String} {spellings : α → List Spelling} {xs : List α}
    (h : ∀ x index, Obeys (f (x, index)) (checks (x, index)) fun y ↦
      Spells (identifiers y) (spellings x)) :
    Obeys (xs.zipIdx.mapM f) (xs.zipIdx.flatMap checks) fun ys ↦
      Spells (ys.flatMap identifiers) (xs.flatMap spellings) := by
  have hitems : xs.zipIdx.flatMap (fun x ↦ spellings x.1) = xs.flatMap spellings := by
    rw [← List.flatMap_map, List.zipIdx_map_fst]
  rw [← hitems]
  exact mapM fun x ↦ h x.1 x.2

end Obeys

theorem ident_obeys (name place : String) :
    Obeys (ident name place) [.identifier place name] fun out ↦ Spells [out] [.name name] := by
  constructor
  · intro e
    rw [ident, failure?, List.findSome?_singleton, Check.failure?]
    cases issue? name <;> simp
  · intro out h
    obtain ⟨hvalid, rfl⟩ := ident_eq_ok.1 h
    exact .name hvalid

theorem optionalIdent_obeys (name : Option String) (place : String) :
    Obeys (optionalIdent name place) (nameChecks place (name.toList.map .name)) fun out ↦
      Spells out.toList (name.toList.map .name) := by
  cases name with
  | none => exact .ok .nil
  | some name => exact (ident_obeys name place).map fun _ hname ↦ hname

theorem nameChecks_append (place : String) (first second : List Spelling) :
    nameChecks place (first ++ second) = nameChecks place first ++ nameChecks place second :=
  List.flatMap_append

theorem nameChecks_flatMap {α : Type} (place : String) (spellings : α → List Spelling)
    (items : List α) : nameChecks place (items.flatMap spellings) =
      items.flatMap fun item ↦ nameChecks place (spellings item) :=
  List.flatMap_assoc

theorem selectorExpr_identifiers (base : Option String) (member : String) :
    (selectorExpr base member).identifiers = base.toList ++ [member] := by
  cases base <;> rfl

theorem typeReference_obeys (type place : String) :
    Obeys (typeReference type place) (nameChecks place (typeSpellings type)) fun e ↦
      Spells e.identifiers (typeSpellings type) := by
  unfold typeReference typeSpellings
  cases cutAtPoint? type with
  | none => exact (ident_obeys type place).map fun _ htype ↦ htype
  | some sides =>
    exact (ident_obeys sides.1 place).bind fun _ hpackage ↦
      (ident_obeys sides.2 place).map fun _ hmember ↦ hpackage.append hmember

theorem optionalType_obeys (type : Option String) (place : String) :
    Obeys (type.mapM fun type ↦ typeReference type place)
      (nameChecks place (type.toList.flatMap typeSpellings))
      fun e ↦ Spells (e.toList.flatMap Source.Expr.identifiers)
        (type.toList.flatMap typeSpellings) := by
  cases type with
  | none => exact .ok .nil
  | some type =>
    rw [Option.mapM_some, Option.toList_some, List.flatMap_singleton]
    refine (typeReference_obeys type place).map fun e he ↦ ?_
    rwa [Option.toList_some, List.flatMap_singleton]

theorem literal_spells (l : Literal) : Spells (literal l).identifiers l.spellings := by
  cases l with
  | identifier text => exact .literal text
  | string text => exact .nil
  | int text => exact .nil

theorem literals_spell (literals : List Literal) :
    Spells (Source.Expr.listIdentifiers (literals.map literal))
      (literals.flatMap Literal.spellings) := by
  induction literals with
  | nil => exact .nil
  | cons l literals ih => exact (literal_spells l).append ih

theorem nameChecks_literals (place : String) (literals : List Literal) :
    nameChecks place (literals.flatMap Literal.spellings) = [] := by
  rw [nameChecks_flatMap, List.flatMap_eq_nil_iff]
  intro l _
  cases l <;> rfl

theorem selector_obeys (place : String) (s : Selector) :
    Obeys (selector place s) (nameChecks place s.spellings) fun e ↦
      Spells e.identifiers s.spellings := by
  rw [Selector.spellings, nameChecks_append]
  refine (optionalIdent_obeys s.base place).bind fun base hbase ↦
    (ident_obeys s.member place).map fun member hmember ↦ ?_
  rw [selectorExpr_identifiers]
  exact hbase.append hmember

theorem expression_obeys (place : String) (e : Expression) :
    Obeys (expression place e) (nameChecks place e.spellings) fun out ↦
      Spells out.identifiers e.spellings := by
  cases e with
  | call callee arguments =>
    rw [Expression.spellings, nameChecks_append, nameChecks_literals, List.append_nil]
    exact (selector_obeys place callee).map fun _ hcallee ↦
      hcallee.append (literals_spell arguments)
  | selector s => exact selector_obeys place s
  | literal l =>
    have hchecks := nameChecks_literals place [l]
    rw [List.flatMap_singleton] at hchecks
    rw [Expression.spellings, hchecks]
    exact .ok (literal_spells l)
  | identifier name => exact (ident_obeys name place).map fun _ hname ↦ hname

theorem statement_obeys (place : String) (s : Statement) :
    Obeys (statement place s) (nameChecks place s.spellings) fun out ↦
      Spells out.identifiers s.spellings := by
  cases s with
  | expression e =>
    refine (expression_obeys place e).map fun out hout ↦ ?_
    rwa [Source.Stmt.identifiers, Source.Stmt.values, List.flatMap_singleton]
  | ret values =>
    rw [Statement.spellings, nameChecks_flatMap]
    exact (Obeys.mapM (expression_obeys place)).map fun _ hout ↦ hout

theorem body_obeys (function : String) (statements : List Statement) :
    Obeys (body function statements)
      (statements.zipIdx.flatMap fun (s, index) ↦
        nameChecks (Place.statement index function) s.spellings)
      fun out ↦ Spells (out.flatMap Source.Stmt.identifiers)
        (statements.flatMap Statement.spellings) :=
  .mapM_zipIdx fun s index ↦ statement_obeys (Place.statement index function) s

theorem field_obeys (place : String) (f : Field) :
    Obeys (field place f) (nameChecks place f.spellings) fun out ↦
      Spells out.identifiers f.spellings := by
  rw [Field.spellings, nameChecks_append]
  exact (optionalIdent_obeys f.name place).bind fun _ hname ↦
    (optionalType_obeys f.type place).map fun _ htype ↦ hname.append htype

theorem fields_obey (function : String) (role : Role) (fields : List Field) :
    Obeys (fields.zipIdx.mapM fun (f, index) ↦ field (Place.field role.text index function) f)
      (fields.zipIdx.flatMap fun (f, index) ↦
        nameChecks (Place.field role.text index function) f.spellings)
      fun out ↦ Spells (out.flatMap Source.Field.identifiers) (fields.flatMap Field.spellings) :=
  .mapM_zipIdx fun f index ↦ field_obeys (Place.field role.text index function) f

theorem failure?_partsChecks_of_full {fields : List Field} (function : String) (role : Role)
    (start : Nat) (h : ∀ f ∈ fields, ¬ f.Vacant) :
    failure? (partsChecks function role start fields) = none := by
  rw [failure?_eq_none_iff, partsChecks, List.forall_mem_map]
  intro (f, index) hmem
  exact if_neg (h f (List.fst_mem_of_mem_zipIdx hmem))

theorem failure?_partsChecks_of_vacant {before : List Field} {f : Field} (function : String)
    (role : Role) (after : List Field) (h : ∀ earlier ∈ before, ¬ earlier.Vacant)
    (hf : f.Vacant) :
    failure? (partsChecks function role 0 (before ++ f :: after)) =
      some (.degenerateField (Place.field role.text before.length function)) := by
  have hbefore := failure?_partsChecks_of_full function role 0 h
  rw [partsChecks] at hbefore
  rw [partsChecks, List.zipIdx_append, List.map_append, failure?_append, hbefore,
    Option.none_or, List.zipIdx_cons, List.map_cons, failure?, List.findSome?_cons,
    Check.failure?, if_pos hf, Nat.zero_add]

theorem fieldList_obeys (function : String) (role : Role) (fields : List Field) :
    Obeys (fieldList function role fields) (fieldListChecks function role fields) fun out ↦
      Spells (out.flatMap Source.Field.identifiers) (fields.flatMap Field.spellings) := by
  rcases full_or_first_vacant fields with hfull | ⟨before, f, after, rfl, hbefore, hf⟩
  · refine .passed (failure?_partsChecks_of_full function role 0 hfull) ?_
    have hcoherence : failure? [.coherence (Place.fieldList role.text function) fields] =
        if Coherent fields then none
        else some (.mixedFieldNames (Place.fieldList role.text function)) :=
      List.findSome?_singleton
    by_cases hcoherent : Coherent fields
    · rw [if_pos hcoherent] at hcoherence
      rw [fieldList_of_coherent hfull hcoherent]
      exact .passed hcoherence (fields_obey function role fields)
    · rw [if_neg hcoherent] at hcoherence
      rw [fieldList_of_incoherent hfull hcoherent]
      exact .error hcoherence _
  · rw [fieldList_of_vacant hbefore hf]
    exact .error (failure?_partsChecks_of_vacant function role after hbefore hf) _

theorem importSpec_obeys (index : Nat) (spec : Import) :
    Obeys (importSpec index spec) (importChecks index spec) fun out ↦
      Spells out.identifiers spec.spellings := by
  have hpath : failure? [.importPath index spec.path] =
      if spec.path = "" then some (.emptyImportPath index) else none :=
    List.findSome?_singleton
  unfold importSpec importChecks
  split
  · next hempty =>
    rw [if_pos hempty] at hpath
    exact .error hpath _
  · next hpresent =>
    rw [if_neg hpresent] at hpath
    exact .passed hpath ((optionalIdent_obeys spec.localName _).map fun _ hname ↦ hname)

theorem importGroup_obeys (imports : List Import) :
    Obeys (importGroup imports)
      (imports.zipIdx.flatMap fun (spec, index) ↦ importChecks index spec)
      fun out ↦ Spells (out.flatMap Source.Decl.identifiers)
        (imports.flatMap Import.spellings) := by
  unfold importGroup
  split
  · next hempty =>
    rw [hempty]
    exact .ok .nil
  · refine (Obeys.mapM_zipIdx fun spec index ↦ importSpec_obeys index spec).map fun out hout ↦ ?_
    rwa [List.flatMap_singleton]

theorem function_obeys (index : Nat) (f : Function) :
    Obeys (function index f) (functionChecks index f) fun out ↦
      Spells out.identifiers f.spellings :=
  (ident_obeys f.name _).bind fun _ hname ↦
    (fieldList_obeys f.name .parameter f.params).bind fun _ hparams ↦
    (fieldList_obeys f.name .result f.results).bind fun _ hresults ↦
    (body_obeys f.name f.body).map fun _ hbody ↦
      hname.append (hparams.append (hresults.append hbody))

theorem file_obeys (outline : Outline.File) :
    Obeys (file outline) (checks outline) fun tree ↦
      Spells tree.identifiers outline.spellings := by
  refine (ident_obeys outline.package _).bind fun package hpackage ↦
    (importGroup_obeys outline.imports).bind fun imports himports ↦
    (Obeys.mapM_zipIdx fun f index ↦ function_obeys index f).map fun functions hfunctions ↦ ?_
  have hdecls : (functions.map Source.Decl.func).flatMap Source.Decl.identifiers =
      functions.flatMap Source.Func.identifiers := by
    rw [List.flatMap_map]
    rfl
  rw [Source.File.identifiers, List.flatMap_append, hdecls]
  exact hpackage.append (himports.append hfunctions)

/-- Rendering goes through the checks of an outline. It succeeds when all of them pass, and fails
as the first one that does not; a tree spells the identifiers of its outline in their order, and
all but those of identifier literals are valid. -/
theorem text_follows_checks (outline : Outline.File) :
    ((∃ written, text outline = .ok written) ↔
      ∀ check ∈ checks outline, check.failure? = none) ∧
    (∀ e, text outline = .error e ↔ ∃ before check after,
      checks outline = before ++ check :: after ∧
        (∀ earlier ∈ before, earlier.failure? = none) ∧ check.failure? = some e) ∧
    ∀ tree, file outline = .ok tree →
      tree.identifiers = outline.spellings.map Spelling.text ∧
        ∀ name, .name name ∈ outline.spellings → isValid name = true := by
  have hfile := file_obeys outline
  have htext : Obeys (text outline) (checks outline) fun _ ↦ True :=
    hfile.map fun _ _ ↦ trivial
  refine ⟨?_, fun e ↦ ?_, fun tree htree ↦ ?_⟩
  · rw [← failure?_eq_none_iff]
    constructor
    · intro ⟨written, hwritten⟩
      exact htext.failure?_eq_none hwritten
    · exact htext.exists_ok
  · rw [htext.fails, failure?, List.findSome?_eq_some_iff]
    grind
  · have hspells := hfile.ends tree htree
    exact ⟨hspells.same, hspells.valid⟩

/-- A function of one reader that returns what is no identifier. -/
def readerOutline : Outline.File :=
  ⟨"lib", [⟨some "in", "io"⟩],
    [⟨"f", [⟨some "r", some "in.Reader"⟩], [], [.ret [.literal (.identifier "r.n")]]⟩]⟩

theorem text_follows_checks_reader : ∃ tree, file readerOutline = .ok tree ∧
    tree.identifiers = ["lib", "in", "f", "r", "in", "Reader", "r.n"] :=
  ⟨_, rfl, ((text_follows_checks readerOutline).2.2 _ rfl).1⟩

end Rendering

end DeclaredSource
