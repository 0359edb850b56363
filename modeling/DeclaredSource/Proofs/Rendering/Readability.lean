import DeclaredSource.Proofs.FirstFailure
import DeclaredSource.Proofs.Source.Readability.File
import DeclaredSource.Rendering.File

/-!
# Rendered files are uniquely readable

Rendering checks every name except those of identifier literals, and no other literal. When the
literals are what their kinds promise and no path holds a quote, a rendered tree is legible, so two
outlines that render to one text were rendered from trees that read alike.
-/

namespace DeclaredSource.Outline

open Identifier

/-- What the kind of a literal promises about its text, which rendering does not check. -/
def Literal.Plain : Literal → Prop
  | .identifier text => isValid text = true
  | .string text => '"' ∉ text.toList
  | .int text => text ≠ "" ∧ ∀ c ∈ text.toList, isDigit c = true

def Expression.literals : Expression → List Literal
  | .call _ arguments => arguments
  | .selector _ => []
  | .literal l => [l]
  | .identifier _ => []

def Statement.literals : Statement → List Literal
  | .expression e => e.literals
  | .ret values => values.flatMap Expression.literals

structure File.Plain (file : File) : Prop where
  literals : ∀ function ∈ file.functions, ∀ statement ∈ function.body,
    ∀ literal ∈ statement.literals, literal.Plain
  paths : ∀ spec ∈ file.imports, '"' ∉ spec.path.toList

end DeclaredSource.Outline

namespace DeclaredSource.Rendering

open FirstFailure Identifier

theorem ident_eq_ok {name place name' : String} :
    ident name place = .ok name' ↔ isValid name = true ∧ name = name' := by
  rw [ident, isValid]
  cases issue? name <;> simp

theorem optionalIdent_eq_ok {name name' : Option String} {place : String} :
    optionalIdent name place = .ok name' ↔
      (∀ text, name = some text → isValid text = true) ∧ name = name' := by
  cases name with
  | none => simp [optionalIdent]
  | some text =>
    rw [optionalIdent]
    simp only [bind_eq_ok, ident_eq_ok, pure_eq_ok]
    simp

theorem selectorExpr_isReference {base : Option String} {member : String}
    (hbase : ∀ text, base = some text → isValid text = true) (hmember : isValid member = true) :
    (selectorExpr base member).IsReference := by
  cases base with
  | none => exact .ident hmember
  | some base => exact .selector (hbase base rfl) hmember

theorem selector_isReference {place : String} {s : Outline.Selector} {e : Source.Expr}
    (h : selector place s = .ok e) : e.IsReference := by
  rw [selector] at h
  simp only [bind_eq_ok, optionalIdent_eq_ok, ident_eq_ok, pure_eq_ok] at h
  obtain ⟨_, ⟨hbase, rfl⟩, _, ⟨hmember, rfl⟩, rfl⟩ := h
  exact selectorExpr_isReference hbase hmember

theorem typeReference_isReference {text place : String} {e : Source.Expr}
    (h : typeReference text place = .ok e) : e.IsReference := by
  rw [typeReference] at h
  split at h
  · simp only [bind_eq_ok, ident_eq_ok, pure_eq_ok] at h
    obtain ⟨_, ⟨hbase, rfl⟩, _, ⟨hmember, rfl⟩, rfl⟩ := h
    exact .selector hbase hmember
  · simp only [bind_eq_ok, ident_eq_ok, pure_eq_ok] at h
    obtain ⟨_, ⟨hname, rfl⟩, rfl⟩ := h
    exact .ident hname

section Leaves

variable {Leaf : Source.Expr → Prop} {Path : String → Prop}

/-- What an expression is rendered to: nothing but references and literals of its own. -/
theorem expression_over {place : String} {expr : Outline.Expression} {e : Source.Expr}
    (h : expression place expr = .ok e) (leaves : ∀ l ∈ expr.literals, Leaf (literal l)) :
    e.Over Leaf := by
  cases expr with
  | call callee arguments =>
    simp only [expression, bind_eq_ok, pure_eq_ok] at h
    obtain ⟨reference, hcallee, rfl⟩ := h
    refine .call (selector_isReference hcallee) fun a ha ↦ ?_
    obtain ⟨l, hl, rfl⟩ := List.mem_map.1 ha
    exact leaves l hl
  | selector s => exact .reference (selector_isReference h)
  | literal l =>
    rw [expression, Except.ok.injEq] at h
    exact .leaf (h ▸ leaves l List.mem_cons_self)
  | identifier name =>
    simp only [expression, bind_eq_ok, ident_eq_ok, pure_eq_ok] at h
    obtain ⟨_, ⟨valid, rfl⟩, rfl⟩ := h
    exact .reference (.ident valid)

theorem statement_over {place : String} {s : Outline.Statement} {stmt : Source.Stmt}
    (h : statement place s = .ok stmt) (leaves : ∀ l ∈ s.literals, Leaf (literal l)) :
    stmt.Over Leaf := by
  cases s with
  | expression expr =>
    simp only [statement, bind_eq_ok, pure_eq_ok] at h
    obtain ⟨e, he, rfl⟩ := h
    exact .expr (expression_over he leaves)
  | ret values =>
    simp only [statement, bind_eq_ok, pure_eq_ok] at h
    obtain ⟨values', hvalues, rfl⟩ := h
    refine .ret fun e he ↦ ?_
    obtain ⟨value, hvalue, heq⟩ := exists_mem_of_mapM hvalues he
    exact expression_over heq fun l hl ↦ leaves l (List.mem_flatMap.2 ⟨value, hvalue, hl⟩)

theorem field_eq_ok {place : String} {f : Outline.Field} {g : Source.Field}
    (h : field place f = .ok g) : g.name = f.name ∧ g.type.isSome = f.type.isSome ∧
      (∀ name, g.name = some name → isValid name = true) ∧
      ∀ type, g.type = some type → type.IsReference := by
  obtain ⟨name, type⟩ := f
  rw [field] at h
  simp only [bind_eq_ok, optionalIdent_eq_ok, pure_eq_ok] at h
  obtain ⟨_, ⟨hname, rfl⟩, type', htype, rfl⟩ := h
  cases type with
  | none =>
    cases htype
    exact ⟨rfl, rfl, hname, by simp⟩
  | some text =>
    rw [Option.mapM_some, map_eq_ok] at htype
    obtain ⟨e, he, rfl⟩ := htype
    refine ⟨rfl, rfl, hname, ?_⟩
    rintro _ ⟨⟩
    exact typeReference_isReference he

theorem field_legible {place : String} {f : Outline.Field} {g : Source.Field}
    (h : field place f = .ok g) (hparts : isDegenerate f = false) : g.Legible := by
  obtain ⟨hname, htype, hvalid, hreference⟩ := field_eq_ok h
  rw [isDegenerate, Bool.and_eq_false_iff, ← hname] at hparts
  obtain ⟨name, type⟩ := g
  cases name with
  | none =>
    cases type with
    | none => simp_all
    | some type => exact .type (hreference type rfl)
  | some name =>
    cases type with
    | none => exact .name (hvalid name rfl)
    | some type => exact .full (hvalid name rfl) (hreference type rfl)

theorem fieldList_legible {function : String} {role : Role} {fields : List Outline.Field}
    {out : List Source.Field} (h : fieldList function role fields = .ok out) :
    Source.Field.ListLegible out := by
  rw [fieldList] at h
  split at h
  · cases h
  · next hparts =>
    split at h
    · cases h
    · next hmixed =>
      have hsource {g : Source.Field} (hg : g ∈ out) :
          ∃ f ∈ fields, ∃ place, field place f = .ok g := by
        obtain ⟨f, hf, index, heq⟩ := exists_mem_of_mapM_zipIdx h hg
        exact ⟨f, hf, _, heq⟩
      rw [List.findIdx?_eq_none_iff] at hparts
      constructor
      · intro g hg
        obtain ⟨f, hf, place, heq⟩ := hsource hg
        exact field_legible heq (hparts f hf)
      · intro hfull g hg
        obtain ⟨full, hmem, hboth⟩ := List.any_eq_true.1 hfull
        obtain ⟨f, hf, place, heq⟩ := hsource hg
        obtain ⟨f', hf', place', heq'⟩ := hsource hmem
        obtain ⟨hname, -, -, -⟩ := field_eq_ok heq
        obtain ⟨hname', htype', -, -⟩ := field_eq_ok heq'
        rw [Source.Field.isFull, hname', htype'] at hboth
        have hnamed : (fields.any fun field ↦ field.name.isSome && field.type.isSome) = true :=
          List.any_eq_true.2 ⟨f', hf', hboth⟩
        have hunnamed : (fields.any (·.name.isNone)) = false := by
          rw [isMixed, hnamed] at hmixed
          cases hnone : fields.any (·.name.isNone) with
          | false => rfl
          | true => simp [hnone] at hmixed
        rw [hname, Option.isSome_iff_ne_none]
        simpa using List.any_eq_false.1 hunnamed f hf

theorem importSpec_eq_ok {index : Nat} {spec : Outline.Import} {out : Source.ImportSpec}
    (h : importSpec index spec = .ok out) :
    (∀ name, out.name = some name → isValid name = true) ∧ out.path = stringLiteral spec.path := by
  rw [importSpec] at h
  split at h
  · cases h
  · simp only [bind_eq_ok, optionalIdent_eq_ok, pure_eq_ok] at h
    obtain ⟨_, ⟨hname, rfl⟩, rfl⟩ := h
    exact ⟨hname, rfl⟩

/-- A group is never empty. -/
theorem importGroup_eq_ok {imports : List Outline.Import} {decls : List Source.Decl}
    (h : importGroup imports = .ok decls) :
    (imports = [] ∧ decls = []) ∨ (imports ≠ [] ∧ ∃ specs, decls = [.imports specs] ∧
      imports.zipIdx.mapM (fun (spec, index) ↦ importSpec index spec) = .ok specs) := by
  rw [importGroup] at h
  split at h
  · next hempty =>
    cases h
    exact .inl ⟨hempty, rfl⟩
  · next hpresent =>
    simp only [bind_eq_ok, pure_eq_ok] at h
    obtain ⟨specs, hspecs, rfl⟩ := h
    exact .inr ⟨hpresent, specs, rfl, hspecs⟩

theorem function_eq_ok {index : Nat} {f : Outline.Function} {out : Source.Func}
    (h : function index f = .ok out) :
    isValid out.name = true ∧ Source.Field.ListLegible out.params ∧
      Source.Field.ListLegible out.results ∧ body f.name f.body = .ok out.body := by
  rw [function] at h
  simp only [bind_eq_ok, ident_eq_ok, pure_eq_ok] at h
  obtain ⟨_, ⟨hname, rfl⟩, params, hparams, results, hresults, stmts, hbody, rfl⟩ := h
  exact ⟨hname, fieldList_legible hparams, fieldList_legible hresults, hbody⟩

theorem file_eq_ok {outline : Outline.File} {out : Source.File} (h : file outline = .ok out) :
    isValid out.package = true ∧ ∃ imports functions, out.decls = imports ++ functions.map .func ∧
      importGroup outline.imports = .ok imports ∧
      outline.functions.zipIdx.mapM (fun (f, index) ↦ function index f) = .ok functions := by
  rw [file] at h
  simp only [bind_eq_ok, ident_eq_ok, pure_eq_ok] at h
  obtain ⟨_, ⟨hpackage, rfl⟩, imports, himports, functions, hfunctions, rfl⟩ := h
  exact ⟨hpackage, imports, functions, rfl, himports, hfunctions⟩

theorem importGroup_over {imports : List Outline.Import} {decls : List Source.Decl}
    (h : importGroup imports = .ok decls) (paths : ∀ spec ∈ imports, Path spec.path) :
    ∀ decl ∈ decls, decl.Over Leaf Path := by
  rcases importGroup_eq_ok h with ⟨-, rfl⟩ | ⟨-, specs, rfl, hspecs⟩
  · simp
  · rw [List.forall_mem_singleton]
    refine .imports fun out hout ↦ ?_
    obtain ⟨spec, hspec, index, heq⟩ := exists_mem_of_mapM_zipIdx hspecs hout
    obtain ⟨hname, hpath⟩ := importSpec_eq_ok heq
    exact ⟨hname, spec.path, paths spec hspec, hpath⟩

theorem function_over {index : Nat} {f : Outline.Function} {out : Source.Func}
    (h : function index f = .ok out)
    (leaves : ∀ s ∈ f.body, ∀ l ∈ s.literals, Leaf (literal l)) : out.Over Leaf := by
  obtain ⟨hname, hparams, hresults, hbody⟩ := function_eq_ok h
  refine ⟨hname, hparams, hresults, fun stmt hstmt ↦ ?_⟩
  obtain ⟨s, hs, index, heq⟩ := exists_mem_of_mapM_zipIdx hbody hstmt
  exact statement_over heq (leaves s hs)

/-- Whatever holds of the literals of an outline, as they are rendered, and of its import paths
holds of the leaves and the paths of the rendered file. -/
theorem file_over {outline : Outline.File} {out : Source.File} (h : file outline = .ok out)
    (leaves : ∀ f ∈ outline.functions, ∀ s ∈ f.body, ∀ l ∈ s.literals, Leaf (literal l))
    (paths : ∀ spec ∈ outline.imports, Path spec.path) : out.Over Leaf Path := by
  obtain ⟨hpackage, imports, functions, hdecls, himports, hfunctions⟩ := file_eq_ok h
  refine ⟨hpackage, ?_⟩
  rw [hdecls, List.forall_mem_append]
  refine ⟨importGroup_over himports paths, fun decl hdecl ↦ ?_⟩
  obtain ⟨out, hout, rfl⟩ := List.mem_map.1 hdecl
  obtain ⟨f, hf, index, heq⟩ := exists_mem_of_mapM_zipIdx hfunctions hout
  exact .func (function_over heq (leaves f hf))

end Leaves

theorem literal_isArgument {l : Outline.Literal} (h : l.Plain) : (literal l).IsArgument := by
  cases l with
  | identifier text => exact .ident h
  | string text => exact .literal (.string h)
  | int text => exact .literal (.int h.1 h.2)

theorem file_legible {outline : Outline.File} {out : Source.File} (h : file outline = .ok out)
    (plain : outline.Plain) : out.Legible :=
  file_over h (fun f hf s hs l hl ↦ literal_isArgument (plain.literals f hf s hs l hl)) plain.paths

/-- Plain outlines that render to one text are rendered from trees that read alike: the trees are
the same up to reading a name that stands alone as a type, in field lists where no field has both
parts. -/
theorem uniquely_readable {first second : Outline.File} (hfirst : first.Plain)
    (hsecond : second.Plain) {written : String} (h : text first = .ok written)
    (h' : text second = .ok written) :
    ∃ a b, file first = .ok a ∧ file second = .ok b ∧ a.asRead = b.asRead := by
  simp only [text, bind_eq_ok, pure_eq_ok] at h h'
  obtain ⟨a, ha, rfl⟩ := h
  obtain ⟨b, hb, hprint⟩ := h'
  exact ⟨a, b, ha, hb, Source.File.asRead_eq_of_print (file_legible ha hfirst)
    (file_legible hb hsecond) hprint.symm⟩

/-- One function, with one parameter, that prints its argument. -/
def echo (param : Outline.Field) : Outline.File :=
  ⟨"main", [⟨none, "fmt"⟩],
    [⟨"echo", [param], [],
      [.expression (.call ⟨some "fmt", "Println"⟩ [.string "got", .int "1", .identifier "a"])]⟩]⟩

theorem echo_plain (param : Outline.Field) : (echo param).Plain := by
  constructor
  · simp [echo, Outline.Statement.literals, Outline.Expression.literals, Outline.Literal.Plain]
    decide
  · simp [echo]

theorem uniquely_readable_echo :
    text (echo ⟨some "a", none⟩) = text (echo ⟨none, some "a"⟩) ∧
      ∃ a b, file (echo ⟨some "a", none⟩) = .ok a ∧ file (echo ⟨none, some "a"⟩) = .ok b ∧
        a.asRead = b.asRead :=
  ⟨rfl, uniquely_readable (echo_plain _) (echo_plain _)
    (show text (echo ⟨some "a", none⟩) = .ok
      "package main\n\nimport \"fmt\"\n\nfunc echo(a) \x7b\n\tfmt.Println(\"got\", 1, a)\n\x7d\n"
      from rfl) rfl⟩

end DeclaredSource.Rendering
