/-!
# Source trees

The syntax tree of a source file, as far as generated files need it: import groups, functions with
parameter and result lists, expression and return statements. Names are plain text and a literal
keeps the exact text it is written with, quotes included.
-/

namespace DeclaredSource.Source

inductive LiteralKind where
  | int | string
  deriving DecidableEq, Repr

structure Literal where
  kind : LiteralKind
  text : String
  deriving DecidableEq, Repr

inductive Expr where
  | ident (name : String)
  | literal (literal : Literal)
  | selector (base : Expr) (member : String)
  | call (callee : Expr) (arguments : List Expr)
  deriving Inhabited, Repr

inductive Stmt where
  | expr (expr : Expr)
  | ret (values : List Expr)
  deriving Repr

structure Field where
  name : Option String
  type : Option Expr
  deriving Repr

structure Func where
  name : String
  params : List Field
  results : List Field
  body : List Stmt
  deriving Repr

structure ImportSpec where
  name : Option String
  path : Literal
  deriving DecidableEq, Repr

inductive Decl where
  | imports (specs : List ImportSpec)
  | func (func : Func)
  deriving Repr

structure File where
  package : String
  decls : List Decl
  deriving Repr

end DeclaredSource.Source
