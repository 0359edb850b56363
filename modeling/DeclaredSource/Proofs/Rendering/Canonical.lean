import DeclaredSource.Proofs.Declaration.Expressible
import DeclaredSource.Proofs.Declaration.Strictness
import DeclaredSource.Proofs.Rendering.Readability
import DeclaredSource.Proofs.Source.Lines
import Mathlib.Algebra.GroupWithZero.Nat

/-!
# Generated text is canonical

Rendering checks the names of a tree, refuses fields without parts and leaves out empty groups. So
when no string goes over its line and what stands for a name or a number is a word, the leaves of a
rendered tree are solid texts, and its lines are canonical. How many there are follows from the
numbers of imports, functions and statements.
-/

namespace DeclaredSource.Outline

/-- A string stands on one line, and what is written without quotes is a word. -/
def Literal.Unbroken : Literal → Prop
  | .identifier text | .int text => text ≠ "" ∧ ∀ c ∈ text.toList, Text.isSpace c = false
  | .string text => '\n' ∉ text.toList

-- Looked for among the letters of the text, not among all characters.
instance : DecidablePred Literal.Unbroken
  | .identifier text | .int text =>
    @instDecidableAnd (text ≠ "") _ _ (List.decidableBAll (Text.isSpace · = false) text.toList)
  | .string text => inferInstanceAs (Decidable ('\n' ∉ text.toList))

structure File.Unbroken (file : File) : Prop where
  literals : ∀ function ∈ file.functions, ∀ statement ∈ function.body,
    ∀ literal ∈ statement.literals, literal.Unbroken
  paths : ∀ spec ∈ file.imports, '\n' ∉ spec.path.toList

/-- The lines that so many imports take, with the blank line before them. -/
def importExtent : Nat → Nat
  | 0 => 0
  | 1 => 2
  | n => n + 3

/-- The lines that a function with so many statements takes, with the blank line before it. -/
def functionExtent : Nat → Nat
  | 0 => 2
  | s => s + 3

/-- The lines of a file, the package clause among them. -/
def File.extent (file : File) : Nat :=
  1 + importExtent file.imports.length +
    (file.functions.map fun function ↦ functionExtent function.body.length).sum

end DeclaredSource.Outline

namespace DeclaredSource.Source

open Text

open Outline (importExtent functionExtent)

theorem Func.length_lines (func : Func) :
    func.lines.length + 1 = functionExtent func.body.length := by
  obtain ⟨name, params, results, body⟩ := func
  cases body <;> simp [lines, functionExtent]

theorem Decl.length_lines_imports {specs : List ImportSpec} (present : specs ≠ []) :
    (Decl.imports specs).lines.length + 1 = importExtent specs.length := by
  match specs with
  | [single] => rfl
  | first :: second :: rest => simp [lines, importExtent]

end DeclaredSource.Source

namespace DeclaredSource.Rendering

open FirstFailure Text

theorem literal_solid {l : Outline.Literal} (h : l.Unbroken) : Text.Solid (literal l).layout := by
  cases l with
  | identifier text => exact .of_visible h.1 h.2
  | string text => exact .quoted h
  | int text => exact .of_visible h.1 h.2

theorem file_solid {outline : Outline.File} {out : Source.File} (h : file outline = .ok out)
    (unbroken : outline.Unbroken) : out.Solid :=
  file_over h (fun f hf s hs l hl ↦ literal_solid (unbroken.literals f hf s hs l hl))
    unbroken.paths

theorem length_importGroup {imports : List Outline.Import} {decls : List Source.Decl}
    (h : importGroup imports = .ok decls) :
    (sections Source.Decl.lines decls).length = Outline.importExtent imports.length := by
  rcases importGroup_eq_ok h with ⟨rfl, rfl⟩ | ⟨hpresent, specs, rfl, hspecs⟩
  · rfl
  · have hlength := (forall₂_of_mapM_zipIdx hspecs).length_eq
    have hpresent' : specs ≠ [] := by
      rintro rfl
      exact hpresent (List.eq_nil_of_length_eq_zero hlength)
    rw [hlength, ← Source.Decl.length_lines_imports hpresent', sections_cons]
    simp [sections]

theorem length_functions {functions : List Outline.Function} {funcs : List Source.Func}
    (h : functions.zipIdx.mapM (fun (f, index) ↦ function index f) = .ok funcs) :
    (sections Source.Decl.lines (funcs.map .func)).length =
      (functions.map fun f ↦ Outline.functionExtent f.body.length).sum := by
  have hfuncs := forall₂_of_mapM_zipIdx h
  clear h
  induction hfuncs with
  | nil => rfl
  | @cons f out functions funcs hf _ ih =>
    obtain ⟨index, hf⟩ := hf
    obtain ⟨-, -, -, hbody⟩ := function_eq_ok hf
    have hlength := (forall₂_of_mapM_zipIdx hbody).length_eq
    have hlines : (Source.Decl.func out).lines.length + 1 =
        Outline.functionExtent f.body.length := hlength ▸ out.length_lines
    rw [List.map_cons, List.map_cons, List.sum_cons, ← hlines, ← ih, sections_cons,
      List.length_cons, List.length_append]
    omega

theorem length_lines {outline : Outline.File} {out : Source.File} (h : file outline = .ok out) :
    out.lines.length = outline.extent := by
  obtain ⟨-, imports, functions, hdecls, himports, hfunctions⟩ := file_eq_ok h
  rw [Source.File.lines, hdecls, Outline.File.extent, ← length_importGroup himports,
    ← length_functions hfunctions, sections_append, List.length_cons, List.length_append]
  omega

end DeclaredSource.Rendering

namespace DeclaredSource.Generation

open Text

/-- Whatever is generated from a declaration whose strings stand on one line each, and whose other
literals are words, is canonical. Its lines are those of the rendered tree, a line is blank just
where a top-level declaration follows, and the lines are as many as the declaration calls for. -/
theorem generate_canonical {mode : Declaration.Mode} {declaration : Json}
    {outline : Outline.File} {text : String}
    (hread : Declaration.read mode declaration = .ok outline)
    (hgenerate : generate mode declaration = .ok text) (unbroken : outline.Unbroken) :
    ∃ tree, Rendering.file outline = .ok tree ∧ Canonical text tree.lines ∧
      (∀ before after, tree.lines = before ++ "" :: after ↔
        ∃ first decl rest, tree.decls = first ++ decl :: rest ∧
          before = Source.File.lines ⟨tree.package, first⟩ ∧
            after = decl.lines ++ sections Source.Decl.lines rest) ∧
      tree.lines.length = outline.extent := by
  obtain ⟨outline', hread', htext⟩ := Declaration.generate_eq_ok.1 hgenerate
  obtain rfl : outline = outline' := Except.ok.inj (hread.symm.trans hread')
  obtain ⟨tree, htree, hprint⟩ := FirstFailure.bind_eq_ok.1 htext
  rw [FirstFailure.pure_eq_ok] at hprint
  have hsolid := Rendering.file_solid htree unbroken
  exact ⟨tree, htree, hprint ▸ hsolid.canonical, hsolid.blank_iff, Rendering.length_lines htree⟩

/-- Two imports, a function with statements and one without. -/
def tally : Outline.File :=
  ⟨"main", [⟨none, "fmt"⟩, ⟨some "x", "a b"⟩],
    [⟨"main", [⟨some "n", some "x.T"⟩], [],
      [.expression (.call ⟨some "fmt", "Println"⟩ [.string " got\t", .int "1", .identifier "n"]),
        .ret []]⟩,
      ⟨"f", [], [⟨none, some "int"⟩], []⟩]⟩

theorem tally_unbroken : tally.Unbroken :=
  ⟨by decide, by decide⟩

theorem generate_canonical_tally :
    let text := "package main\n\nimport (\n\t\"fmt\"\n\tx \"a b\"\n)\n\n" ++
      "func main(n x.T) \x7b\n\tfmt.Println(\" got\t\", 1, n)\n\treturn\n\x7d\n\n" ++
      "func f() int \x7b\x7d\n"
    Declaration.read .strict tally.declaration = .ok tally ∧
      generate .strict tally.declaration = .ok text ∧ tally.Unbroken ∧
      ∃ tree, Rendering.file tally = .ok tree ∧ Canonical text tree.lines ∧
        tree.lines.length = 13 := by
  intro text
  have hread : Declaration.read .strict tally.declaration = .ok tally := by decide +kernel
  have hgenerate : generate .strict tally.declaration = .ok text := by decide +kernel
  obtain ⟨tree, htree, hcanonical, -, hlength⟩ := generate_canonical hread hgenerate tally_unbroken
  exact ⟨hread, hgenerate, tally_unbroken, tree, htree, hcanonical, hlength⟩

end DeclaredSource.Generation
