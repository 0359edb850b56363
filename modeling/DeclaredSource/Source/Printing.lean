import DeclaredSource.Source.Basic
import DeclaredSource.Source.Writer

/-!
# Printing source trees

A tree is printed by passing a writer through its parts in order: the package clause, then every
declaration after an empty line. One import stands alone, several stand in a group; a single result
without a name needs no parentheses; an empty body stays on its function's line.
-/

namespace DeclaredSource.Source

mutual

def Expr.write (writer : Writer) : Expr → Writer
  | .ident name => writer.write name
  | .literal lit => writer.write lit.text
  | .selector base member => ((base.write writer).write ".").write member
  | .call callee arguments =>
    (Expr.writeList ((callee.write writer).write "(") arguments).write ")"

/-- Separated by commas. -/
def Expr.writeList (writer : Writer) : List Expr → Writer
  | [] => writer
  | first :: rest => Expr.writeRest (first.write writer) rest

/-- Each after a comma. -/
def Expr.writeRest (writer : Writer) : List Expr → Writer
  | [] => writer
  | next :: rest => Expr.writeRest (next.write (writer.write ", ")) rest

end

def Stmt.write (writer : Writer) : Stmt → Writer
  | .expr e => e.write writer
  | .ret [] => writer.write "return"
  | .ret values => Expr.writeList ((writer.write "return").write " ") values

def Field.write (writer : Writer) (field : Field) : Writer :=
  match field.name, field.type with
  | some name, some type => type.write ((writer.write name).write " ")
  | some name, none => writer.write name
  | none, some type => type.write writer
  | none, none => writer

def Field.writeList (writer : Writer) : List Field → Writer
  | [] => writer
  | first :: rest =>
    rest.foldl (fun writer field ↦ field.write (writer.write ", ")) (first.write writer)

def Func.writeResults (writer : Writer) (results : List Field) : Writer :=
  match results with
  | [] => writer
  | [⟨none, type⟩] => Field.write (writer.write " ") ⟨none, type⟩
  | results => (Field.writeList (writer.write " (") results).write ")"

def Func.writeBody (writer : Writer) (body : List Stmt) : Writer :=
  if body.isEmpty then writer.write " \x7b\x7d"
  else
    let inside := body.foldl (fun writer stmt ↦ (stmt.write writer).newline)
      (writer.writeLine " \x7b").indent
    inside.dedent.write "\x7d"

def Func.write (writer : Writer) (func : Func) : Writer :=
  let opened := Field.writeList (((writer.write "func ").write func.name).write "(") func.params
  (Func.writeBody (Func.writeResults (opened.write ")") func.results) func.body).newline

def ImportSpec.write (writer : Writer) (spec : ImportSpec) : Writer :=
  match spec.name with
  | some name => ((writer.write name).write " ").write spec.path.text
  | none => writer.write spec.path.text

def ImportSpec.writeGroup (writer : Writer) (specs : List ImportSpec) : Writer :=
  match specs with
  | [single] => (single.write (writer.write "import ")).newline
  | specs =>
    let inside := specs.foldl (fun writer spec ↦ (spec.write writer).newline)
      (writer.writeLine "import (").indent
    inside.dedent.writeLine ")"

def Decl.write (writer : Writer) : Decl → Writer
  | .imports specs => ImportSpec.writeGroup writer specs
  | .func f => f.write writer

def File.write (writer : Writer) (file : File) : Writer :=
  file.decls.foldl (fun writer decl ↦ decl.write writer.newline)
    ((writer.write "package ").writeLine file.package)

def File.print (file : File) : String :=
  (file.write Writer.empty).text

end DeclaredSource.Source
