import DeclaredSource.Proofs.Source.Legible
import DeclaredSource.Proofs.Text.Solid

/-!
# The lines of a printed tree

Any tree is printed as the lines of its parts: a package clause, and the lines of every declaration
after a blank line. When the leaves of a tree are solid texts, every part of a line is put together
from solid texts, so the lines are canonical and the blank ones are those before declarations.
-/

namespace DeclaredSource.Source

open Text

/-- A line without its end. -/
def Writer.indented (depth : Nat) (text : String) : String :=
  if text = "" then "" else tabs depth ++ text

theorem Writer.line_eq (depth : Nat) (text : String) :
    line depth text = indented depth text ++ "\n" := by
  by_cases h : text = "" <;> simp [line, indented, h]

/-- A function up to its body. -/
def Func.head (func : Func) : String :=
  "func " ++ func.name ++ "(" ++ Field.listLayout func.params ++ ")" ++
    Func.resultsLayout func.results

def Func.lines (func : Func) : List String :=
  match func.body with
  | [] => [func.head ++ " \x7b\x7d"]
  | body =>
    (func.head ++ " \x7b") :: body.map (fun stmt ↦ Writer.indented 1 stmt.layout) ++ ["\x7d"]

def Decl.lines : Decl → List String
  | .imports [single] => ["import " ++ single.layout]
  | .imports specs =>
    "import (" :: specs.map (fun spec ↦ Writer.indented 1 spec.layout) ++ [")"]
  | .func f => f.lines

def File.clause (file : File) : String :=
  "package " ++ file.package

def File.lines (file : File) : List String :=
  file.clause :: sections Decl.lines file.decls

theorem unlines_indented {α : Type} (layout : α → String) (items : List α) :
    unlines (items.map fun item ↦ Writer.indented 1 (layout item)) =
      String.join (items.map fun item ↦ Writer.line 1 (layout item)) := by
  simp [unlines, Writer.line_eq, Function.comp_def]

theorem Func.unlines_lines (func : Func) : unlines func.lines = func.layout := by
  obtain ⟨name, params, results, body⟩ := func
  cases body with
  | nil => simp [lines, layout, head, bodyLayout, String.append_assoc]
  | cons first rest =>
    have hlines := unlines_indented Stmt.layout (first :: rest)
    simp only [lines, layout, head, bodyLayout, List.cons_append, unlines_cons, unlines_append,
      hlines]
    simp [String.append_assoc]

theorem Decl.unlines_lines (decl : Decl) : unlines decl.lines = decl.layout := by
  match decl with
  | .imports [single] => simp [lines, layout]
  | .imports [] => simp [lines, layout]
  | .imports (first :: second :: rest) =>
    have hlines := unlines_indented ImportSpec.layout (first :: second :: rest)
    simp only [lines, layout, List.cons_append, unlines_cons, unlines_append, hlines]
    simp [String.append_assoc]
  | .func f => exact f.unlines_lines

theorem File.unlines_lines (file : File) : unlines file.lines = file.print := by
  have hdecls : (fun decl : Decl ↦ "\n" ++ unlines decl.lines) = fun decl ↦ "\n" ++ decl.layout :=
    funext fun decl ↦ by rw [Decl.unlines_lines]
  rw [lines, clause, unlines_cons, unlines_sections, hdecls, File.print_eq_layout, File.layout]

/-- Leaves that are printed as solid texts. -/
abbrev Expr.Solid : Expr → Prop := Over (Text.Solid ·.layout)

abbrev Stmt.Solid : Stmt → Prop := Over (Text.Solid ·.layout)

abbrev Func.Solid : Func → Prop := Over (Text.Solid ·.layout)

abbrev ImportSpec.Solid : ImportSpec → Prop := Over ('\n' ∉ ·.toList)

abbrev Decl.Solid : Decl → Prop := Over (Text.Solid ·.layout) ('\n' ∉ ·.toList)

abbrev File.Solid : File → Prop := Over (Text.Solid ·.layout) ('\n' ∉ ·.toList)

theorem forall_layout {α : Type} {layout : α → String} {items : List α}
    (h : ∀ item ∈ items, Text.Solid (layout item)) :
    ∀ text ∈ items.map layout, Text.Solid text := by
  intro text htext
  obtain ⟨item, hitem, rfl⟩ := List.mem_map.1 htext
  exact h item hitem

theorem Expr.IsReference.solid {e : Expr} (h : e.IsReference) : Text.Solid e.layout := by
  cases h with
  | ident valid => exact .of_valid valid
  | selector valid validMember =>
    exact (Text.Solid.of_valid valid).join "." (by decide) (.of_valid validMember)

theorem Expr.solid_layout {e : Expr} (h : e.Solid) : Text.Solid e.layout := by
  cases h with
  | reference reference => exact reference.solid
  | leaf leaf => exact leaf
  | @call callee arguments reference leaves =>
    have harguments : '\n' ∉ (Expr.listLayout arguments).toList := by
      rw [Expr.listLayout_eq]
      exact Text.Solid.unbroken_intercalate ", " (by decide) (forall_layout leaves)
    have hlayout : (Expr.call callee arguments).layout =
        callee.layout ++ ("(" ++ Expr.listLayout arguments) ++ ")" := by
      simp only [Expr.layout, String.append_assoc]
    rw [hlayout]
    exact reference.solid.join _ (by simp [harguments]) (.word ")")

theorem Stmt.solid_layout {stmt : Stmt} (h : stmt.Solid) : Text.Solid stmt.layout := by
  cases h with
  | expr made => exact Expr.solid_layout made
  | @ret values made =>
    cases values with
    | nil => exact .word "return"
    | cons first rest =>
      have hvalues := Text.Solid.intercalate ", " (by decide) (by simp)
        (forall_layout fun e he ↦ Expr.solid_layout (made e he))
      exact (Text.Solid.word "return").join " " (by decide) hvalues

theorem Field.Legible.solid {field : Field} (h : field.Legible) : Text.Solid field.layout := by
  cases h with
  | full valid reference =>
    exact (Text.Solid.of_valid valid).join " " (by decide) reference.solid
  | name valid => exact .of_valid valid
  | type reference => exact reference.solid

theorem Field.ListLegible.unbroken {fields : List Field} (h : ListLegible fields) :
    '\n' ∉ (Field.listLayout fields).toList :=
  Text.Solid.unbroken_intercalate ", " (by decide) (forall_layout fun f hf ↦ (h.each f hf).solid)

theorem Func.unbroken_resultsLayout {results : List Field} (h : Field.ListLegible results) :
    '\n' ∉ (Func.resultsLayout results).toList := by
  match results with
  | [] => simp [resultsLayout]
  | [⟨none, type⟩] =>
    have hlayout := (h.each ⟨none, type⟩ List.mem_cons_self).solid.unbroken
    simp [resultsLayout, hlayout]
  | [⟨some name, type⟩] | first :: second :: rest =>
    have hlayout := h.unbroken
    simp [resultsLayout, hlayout]

theorem ImportSpec.solid_layout {spec : ImportSpec} (h : spec.Solid) :
    Text.Solid spec.layout := by
  obtain ⟨name, path⟩ := spec
  obtain ⟨text, hunbroken, rfl⟩ := h.path
  cases name with
  | none => exact .quoted hunbroken
  | some name =>
    exact (Text.Solid.of_valid (h.name name rfl)).join " " (by decide) (.quoted hunbroken)

/-- What stands on a function's first line, whatever ends it. -/
theorem Func.solid_opening {func : Func} (h : func.Solid) {brace : String}
    (hbrace : Text.Solid brace) : Text.Solid (func.head ++ (" " ++ brace)) := by
  have hname := (Text.Solid.of_valid h.name).unbroken
  have hparams := h.params.unbroken
  have hresults := Func.unbroken_resultsLayout h.results
  have hline : func.head ++ (" " ++ brace) =
      "func" ++ (" " ++ func.name ++ "(" ++ Field.listLayout func.params ++ ")" ++
        Func.resultsLayout func.results ++ " ") ++ brace := by
    rw [head, show "func " = "func" ++ " " from rfl]
    simp only [String.append_assoc]
  rw [hline]
  exact (Text.Solid.word "func").join _ (by simp [hname, hparams, hresults]) hbrace

theorem Writer.atMargin_indented {text : String} (h : Text.Solid text) :
    AtMargin (Writer.indented 1 text) := by
  rw [indented, if_neg h.ne_empty]
  exact .tab_append h

theorem Writer.forall_indented {α : Type} {layout : α → String} {items : List α}
    (h : ∀ item ∈ items, Text.Solid (layout item)) :
    ∀ line ∈ items.map fun item ↦ Writer.indented 1 (layout item), AtMargin line := by
  intro line hline
  obtain ⟨item, hitem, rfl⟩ := List.mem_map.1 hline
  exact atMargin_indented (h item hitem)

theorem Func.atMargin_lines {func : Func} (h : func.Solid) :
    ∀ line ∈ func.lines, AtMargin line := by
  have hbody := Writer.forall_indented fun stmt hstmt ↦ Stmt.solid_layout (h.body stmt hstmt)
  rw [Func.lines]
  split
  · rw [List.forall_mem_singleton]
    exact .of_solid (solid_opening h (.word "\x7b\x7d"))
  · rw [List.forall_mem_append, List.forall_mem_cons, List.forall_mem_singleton]
    exact ⟨⟨.of_solid (solid_opening h (.word "\x7b")), hbody⟩, .of_solid (.word "\x7d")⟩

theorem Decl.atMargin_lines {decl : Decl} (h : decl.Solid) :
    ∀ line ∈ decl.lines, AtMargin line := by
  cases h with
  | func made => exact Func.atMargin_lines made
  | imports made =>
    have hspecs := Writer.forall_indented fun spec hspec ↦ ImportSpec.solid_layout (made spec hspec)
    rw [Decl.lines.eq_def]
    split
    · next single heq =>
      obtain rfl := Decl.imports.inj heq
      rw [List.forall_mem_singleton]
      have hspec := ImportSpec.solid_layout (made single List.mem_cons_self)
      exact .of_solid ((Text.Solid.word "import").join " " (by decide) hspec)
    · next heq =>
      obtain rfl := Decl.imports.inj heq
      rw [List.forall_mem_append, List.forall_mem_cons, List.forall_mem_singleton]
      have hopening := (Text.Solid.word "import").join " " (by decide) (.word "(")
      exact ⟨⟨.of_solid hopening, hspecs⟩, .of_solid (.word ")")⟩
    · next heq => cases heq

theorem Decl.lines_ne_nil (decl : Decl) : decl.lines ≠ [] := by
  rw [lines.eq_def]
  split
  · exact List.cons_ne_nil _ _
  · simp
  · next f =>
    rw [Func.lines]
    split <;> simp

theorem File.atMargin_clause {file : File} (h : file.Solid) : AtMargin file.clause :=
  .of_solid ((Text.Solid.word "package").join " " (by decide) (.of_valid h.package))

/-- Printing a tree of solid texts gives canonical lines. -/
theorem File.Solid.canonical {file : File} (h : file.Solid) : Canonical file.print file.lines := by
  rw [← file.unlines_lines]
  exact canonical_sections (atMargin_clause h) (fun decl _ ↦ decl.lines_ne_nil)
    fun decl hdecl ↦ Decl.atMargin_lines (h.decls decl hdecl)

/-- A line is blank just where the lines of a declaration follow and all before it are above. -/
theorem File.Solid.blank_iff {file : File} (h : file.Solid) (before after : List String) :
    file.lines = before ++ "" :: after ↔
      ∃ first decl rest, file.decls = first ++ decl :: rest ∧
        before = File.lines ⟨file.package, first⟩ ∧
          after = decl.lines ++ sections Decl.lines rest := by
  have hpresent : ∀ decl ∈ file.decls, "" ∉ decl.lines := fun decl hdecl hmem ↦
    (Decl.atMargin_lines (h.decls decl hdecl) "" hmem).ne_empty rfl
  constructor
  · intro heq
    cases before with
    | nil => exact absurd (List.cons.inj heq).1 (atMargin_clause h).ne_empty
    | cons line before =>
      obtain ⟨hclause, heq⟩ := List.cons.inj heq
      obtain ⟨first, decl, rest, hdecls, rfl, hafter⟩ :=
        (sections_eq_append_iff hpresent before after).1 heq
      exact ⟨first, decl, rest, hdecls, congrArg (· :: _) hclause.symm, hafter⟩
  · rintro ⟨first, decl, rest, hdecls, rfl, hafter⟩
    exact congrArg (file.clause :: ·)
      ((sections_eq_append_iff hpresent _ after).2 ⟨first, decl, rest, hdecls, rfl, hafter⟩)

end DeclaredSource.Source
