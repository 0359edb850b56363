import DeclaredSource.Source.Printing

/-!
# Layout without a writer

The text of every part of a tree, given without a writer: what stands between two line ends is put
together as if it stood at no depth, and a line gets its tabs only when there is something on it.
Printing through the writer comes to the layout, because writing two texts one after the other is
writing them joined.
-/

namespace DeclaredSource.Source

namespace Writer

theorem write_empty (writer : Writer) : writer.write "" = writer := by
  rw [write, if_pos rfl]

theorem write_append (writer : Writer) (first second : String) :
    (writer.write first).write second = writer.write (first ++ second) := by
  by_cases hfirst : first = ""
  · rw [hfirst, write_empty, String.empty_append]
  by_cases hsecond : second = ""
  · rw [hsecond, write_empty, String.append_empty]
  have hboth : first ++ second ≠ "" := by simp [hfirst]
  simp [write, hfirst, hsecond, hboth, String.append_assoc]

/-- A line of its own at a depth. -/
def line (depth : Nat) (text : String) : String :=
  (if text = "" then "" else tabs depth) ++ text ++ "\n"

/-- A writer at the start of a line. -/
def fresh (text : String) (depth : Nat) : Writer :=
  ⟨text, depth, true⟩

@[simp]
theorem line_zero (text : String) : line 0 text = text ++ "\n" := by
  simp [line, tabs]

@[simp]
theorem indent_fresh (text : String) (depth : Nat) :
    (fresh text depth).indent = fresh text (depth + 1) := rfl

@[simp]
theorem dedent_fresh (text : String) (depth : Nat) :
    (fresh text depth).dedent = fresh text (depth - 1) := rfl

@[simp]
theorem newline_fresh (text : String) (depth : Nat) :
    (fresh text depth).newline = fresh (text ++ "\n") depth := rfl

theorem newline_write_fresh (text : String) (depth : Nat) (added : String) :
    ((fresh text depth).write added).newline = fresh (text ++ line depth added) depth := by
  by_cases h : added = ""
  · simp [write, newline, fresh, line, h]
  · simp [write, newline, fresh, line, h, String.append_assoc]

theorem foldl_newline_fresh {α : Type} (layout : α → String) (text : String) (depth : Nat)
    (items : List α) :
    items.foldl (fun writer item ↦ (writer.write (layout item)).newline) (fresh text depth) =
      fresh (text ++ String.join (items.map fun item ↦ line depth (layout item))) depth := by
  induction items generalizing text with
  | nil => simp
  | cons item items ih =>
    rw [List.foldl_cons, newline_write_fresh, ih]
    simp [String.append_assoc]

end Writer

mutual

def Expr.layout : Expr → String
  | .ident name => name
  | .literal lit => lit.text
  | .selector base member => base.layout ++ "." ++ member
  | .call callee arguments => callee.layout ++ "(" ++ Expr.listLayout arguments ++ ")"

/-- Separated by commas. -/
def Expr.listLayout : List Expr → String
  | [] => ""
  | first :: rest => first.layout ++ Expr.restLayout rest

/-- Each after a comma. -/
def Expr.restLayout : List Expr → String
  | [] => ""
  | next :: rest => ", " ++ next.layout ++ Expr.restLayout rest

end

def Stmt.layout : Stmt → String
  | .expr e => e.layout
  | .ret [] => "return"
  | .ret values => "return " ++ ", ".intercalate (values.map Expr.layout)

def Field.layout (field : Field) : String :=
  match field.name, field.type with
  | some name, some type => name ++ " " ++ type.layout
  | some name, none => name
  | none, some type => type.layout
  | none, none => ""

def Field.listLayout (fields : List Field) : String :=
  ", ".intercalate (fields.map Field.layout)

def Func.resultsLayout : List Field → String
  | [] => ""
  | [⟨none, type⟩] => " " ++ Field.layout ⟨none, type⟩
  | results => " (" ++ Field.listLayout results ++ ")"

def Func.bodyLayout : List Stmt → String
  | [] => " \x7b\x7d"
  | body => " \x7b\n" ++ String.join (body.map fun stmt ↦ Writer.line 1 stmt.layout) ++ "\x7d"

def Func.layout (func : Func) : String :=
  "func " ++ func.name ++ "(" ++ Field.listLayout func.params ++ ")" ++
    Func.resultsLayout func.results ++ Func.bodyLayout func.body ++ "\n"

def ImportSpec.layout (spec : ImportSpec) : String :=
  match spec.name with
  | some name => name ++ " " ++ spec.path.text
  | none => spec.path.text

def Decl.layout : Decl → String
  | .imports [single] => "import " ++ single.layout ++ "\n"
  | .imports specs =>
    "import (\n" ++ String.join (specs.map fun spec ↦ Writer.line 1 spec.layout) ++ ")\n"
  | .func f => f.layout

def File.layout (file : File) : String :=
  "package " ++ file.package ++ "\n" ++
    String.join (file.decls.map fun decl ↦ "\n" ++ decl.layout)

theorem intercalate_layout (first : String) (rest : List String) :
    ", ".intercalate (first :: rest) = first ++ String.join (rest.map (", " ++ ·)) := by
  induction rest generalizing first with
  | nil => simp
  | cons next rest ih =>
    rw [String.intercalate_cons_cons, ih]
    simp [String.append_assoc]

theorem Expr.restLayout_eq (values : List Expr) :
    Expr.restLayout values = String.join (values.map fun e ↦ ", " ++ e.layout) := by
  induction values with
  | nil => rfl
  | cons next rest ih => simp [restLayout, ih, String.append_assoc]

theorem Expr.listLayout_eq (values : List Expr) :
    Expr.listLayout values = ", ".intercalate (values.map Expr.layout) := by
  cases values with
  | nil => rfl
  | cons first rest =>
    rw [listLayout, restLayout_eq, List.map_cons, intercalate_layout, List.map_map]
    rfl

mutual

theorem Expr.write_eq (writer : Writer) (e : Expr) : e.write writer = writer.write e.layout := by
  match e with
  | .ident name => rfl
  | .literal lit => rfl
  | .selector base member =>
    calc
      (Expr.selector base member).write writer =
          ((writer.write base.layout).write ".").write member := by
        rw [Expr.write, Expr.write_eq writer base]
      _ = writer.write (base.layout ++ "." ++ member) := by
        rw [Writer.write_append, Writer.write_append]
        simp only [String.append_assoc]
  | .call callee arguments =>
    calc
      (Expr.call callee arguments).write writer =
          (((writer.write callee.layout).write "(").write (listLayout arguments)).write ")" := by
        rw [Expr.write, Expr.write_eq writer callee, Expr.writeList_eq _ arguments]
      _ = writer.write (callee.layout ++ "(" ++ listLayout arguments ++ ")") := by
        simp only [Writer.write_append, String.append_assoc]

theorem Expr.writeList_eq (writer : Writer) (values : List Expr) :
    Expr.writeList writer values = writer.write (Expr.listLayout values) := by
  match values with
  | [] => exact (writer.write_empty).symm
  | first :: rest =>
    rw [Expr.writeList, Expr.write_eq writer first, Expr.writeRest_eq _ rest, Writer.write_append]
    rfl

theorem Expr.writeRest_eq (writer : Writer) (values : List Expr) :
    Expr.writeRest writer values = writer.write (Expr.restLayout values) := by
  match values with
  | [] => exact (writer.write_empty).symm
  | next :: rest =>
    calc
      Expr.writeRest writer (next :: rest) =
          ((writer.write ", ").write next.layout).write (restLayout rest) := by
        rw [Expr.writeRest, Expr.write_eq _ next, Expr.writeRest_eq _ rest]
      _ = writer.write (restLayout (next :: rest)) := by
        rw [Writer.write_append, Writer.write_append, restLayout, String.append_assoc]

end

theorem Stmt.write_eq (writer : Writer) (stmt : Stmt) :
    stmt.write writer = writer.write stmt.layout := by
  match stmt with
  | .expr e => exact Expr.write_eq writer e
  | .ret [] => rfl
  | .ret (first :: rest) =>
    rw [Stmt.write, Expr.writeList_eq, Expr.listLayout_eq, Writer.write_append,
      Writer.write_append, Stmt.layout]
    · rfl
    · simp
    · simp

theorem Field.write_eq (writer : Writer) (field : Field) :
    field.write writer = writer.write field.layout := by
  obtain ⟨name, type⟩ := field
  cases name <;> cases type <;>
    simp [Field.write, Field.layout, Expr.write_eq, Writer.write_append, Writer.write_empty]

theorem Field.writeList_eq (writer : Writer) (fields : List Field) :
    Field.writeList writer fields = writer.write (Field.listLayout fields) := by
  have hfold (rest : List Field) (writer : Writer) (written : String) :
      rest.foldl (fun writer field ↦ field.write (writer.write ", ")) (writer.write written) =
        writer.write (written ++ String.join (rest.map fun field ↦ ", " ++ field.layout)) := by
    induction rest generalizing written with
    | nil => simp
    | cons next rest ih =>
      rw [List.foldl_cons, Field.write_eq, Writer.write_append, Writer.write_append, ih]
      simp [String.append_assoc]
  cases fields with
  | nil => exact (writer.write_empty).symm
  | cons first rest =>
    rw [Field.writeList, Field.write_eq, hfold, Field.listLayout, List.map_cons,
      intercalate_layout, List.map_map]
    rfl

theorem Func.writeResults_eq (writer : Writer) (results : List Field) :
    Func.writeResults writer results = writer.write (Func.resultsLayout results) := by
  match results with
  | [] => exact (writer.write_empty).symm
  | [⟨none, type⟩] => rw [Func.writeResults, Field.write_eq, Writer.write_append]; rfl
  | [⟨some name, type⟩] | first :: second :: rest =>
    simp only [Func.writeResults, Func.resultsLayout, Field.writeList_eq, Writer.write_append]

theorem Func.writeBody_eq (text written : String) (body : List Stmt) :
    (Func.writeBody ((Writer.fresh text 0).write written) body).newline =
      Writer.fresh (text ++ (written ++ Func.bodyLayout body ++ "\n")) 0 := by
  cases body with
  | nil => simp [Func.writeBody, Func.bodyLayout, Writer.write_append, Writer.newline_write_fresh]
  | cons first rest =>
    have hlines := Writer.foldl_newline_fresh Stmt.layout (text ++ (written ++ " \x7b\n")) 1
      (first :: rest)
    simp only [Func.writeBody, Func.bodyLayout, List.isEmpty_cons, Bool.false_eq_true, if_false,
      Writer.writeLine, Writer.write_append, Writer.newline_write_fresh, Writer.line_zero,
      Writer.indent_fresh, Stmt.write_eq]
    simp only [String.append_assoc, Nat.zero_add] at hlines ⊢
    rw [show " \x7b" ++ "\n" = " \x7b\n" from rfl, hlines]
    simp [Writer.newline_write_fresh, String.append_assoc]

theorem Func.write_eq (text : String) (func : Func) :
    func.write (Writer.fresh text 0) = Writer.fresh (text ++ func.layout) 0 := by
  let written := "func " ++ (func.name ++ "(" ++ Field.listLayout func.params ++ ")" ++
    Func.resultsLayout func.results)
  calc
    func.write (Writer.fresh text 0) =
        (Func.writeBody ((Writer.fresh text 0).write written) func.body).newline := by
      simp only [Func.write, Field.writeList_eq, Func.writeResults_eq, Writer.write_append,
        String.append_assoc, written]
    _ = Writer.fresh (text ++ (written ++ Func.bodyLayout func.body ++ "\n")) 0 :=
      Func.writeBody_eq text written func.body
    _ = Writer.fresh (text ++ func.layout) 0 := by
      simp only [Func.layout, String.append_assoc, written]

theorem ImportSpec.write_eq (writer : Writer) (spec : ImportSpec) :
    spec.write writer = writer.write spec.layout := by
  obtain ⟨name, path⟩ := spec
  cases name <;> simp [ImportSpec.write, ImportSpec.layout, Writer.write_append]

theorem ImportSpec.writeGroup_eq (text : String) (specs : List ImportSpec) :
    ImportSpec.writeGroup (Writer.fresh text 0) specs =
      Writer.fresh (text ++ (Decl.imports specs).layout) 0 := by
  have hlines := Writer.foldl_newline_fresh ImportSpec.layout (text ++ "import (\n") 1 specs
  match specs with
  | [single] =>
    simp [ImportSpec.writeGroup, Decl.layout, ImportSpec.write_eq, Writer.write_append,
      Writer.newline_write_fresh]
  | [] | first :: second :: rest =>
    simp only [ImportSpec.writeGroup, Decl.layout, Writer.writeLine, Writer.newline_write_fresh,
      Writer.line_zero, Writer.indent_fresh, ImportSpec.write_eq]
    rw [show "import (" ++ "\n" = "import (\n" from rfl, hlines]
    simp [Writer.newline_write_fresh, String.append_assoc]

theorem Decl.write_eq (text : String) (decl : Decl) :
    decl.write (Writer.fresh text 0) = Writer.fresh (text ++ decl.layout) 0 := by
  cases decl with
  | imports specs => exact ImportSpec.writeGroup_eq text specs
  | func f => exact Func.write_eq text f

theorem Decl.foldl_write_eq (text : String) (decls : List Decl) :
    decls.foldl (fun writer decl ↦ decl.write writer.newline) (Writer.fresh text 0) =
      Writer.fresh (text ++ String.join (decls.map fun decl ↦ "\n" ++ decl.layout)) 0 := by
  induction decls generalizing text with
  | nil => simp
  | cons decl decls ih =>
    rw [List.foldl_cons, Writer.newline_fresh, Decl.write_eq, ih]
    simp [String.append_assoc]

theorem File.write_eq (text : String) (file : File) :
    file.write (Writer.fresh text 0) = Writer.fresh (text ++ file.layout) 0 := by
  have hpackage : ((Writer.fresh text 0).write "package ").writeLine file.package =
      Writer.fresh (text ++ ("package " ++ file.package ++ "\n")) 0 := by
    rw [Writer.writeLine, Writer.write_append, Writer.newline_write_fresh, Writer.line_zero]
  rw [File.write, hpackage, Decl.foldl_write_eq, String.append_assoc]
  rfl

theorem File.print_eq_layout (file : File) : file.print = file.layout := by
  rw [File.print, show Writer.empty = Writer.fresh "" 0 from rfl, File.write_eq,
    String.empty_append]
  rfl

/-- The text of a file is the package clause and, after an empty line each, the layouts of its
declarations. It depends on nothing that was written before: begun at the start of a line and at no
depth, printing adds that text and leaves the writer at the start of a line and at no depth again.
Inside a layout the arguments of a call are joined as the values of a return are. -/
theorem File.print_context_free (file : File) :
    file.print = "package " ++ file.package ++ "\n" ++
        String.join (file.decls.map fun decl ↦ "\n" ++ decl.layout) ∧
      (∀ text, file.write (Writer.fresh text 0) = Writer.fresh (text ++ file.print) 0) ∧
      ∀ callee arguments, (Expr.call callee arguments).layout =
        callee.layout ++ "(" ++ ", ".intercalate (arguments.map Expr.layout) ++ ")" := by
  refine ⟨File.print_eq_layout file, ?_, ?_⟩
  · intro text
    rw [File.print_eq_layout, File.write_eq]
  · intro callee arguments
    rw [Expr.layout, Expr.listLayout_eq]

end DeclaredSource.Source
