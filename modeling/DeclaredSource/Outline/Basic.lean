import DeclaredSource.Vocabulary

/-!
# Outlines

An outline says what a source file contains before any of it is checked: a package name, imports
and functions in order. Names and types are still arbitrary text, and either part of a field may be
absent. Calls are shallow: a call names what it calls by a selector and passes literals only.
-/

namespace DeclaredSource.Outline

inductive Literal where
  | identifier (text : String)
  | string (text : String)
  | int (text : String)
  deriving DecidableEq, Repr

def Literal.ofKind : LiteralKind → String → Literal
  | .identifier => .identifier
  | .string => .string
  | .int => .int

structure Selector where
  base : Option String
  member : String
  deriving DecidableEq, Repr

inductive Expression where
  | call (callee : Selector) (arguments : List Literal)
  | selector (selector : Selector)
  | literal (literal : Literal)
  | identifier (name : String)
  deriving DecidableEq, Repr

inductive Statement where
  | expression (expression : Expression)
  | ret (values : List Expression)
  deriving DecidableEq, Repr

/-- A parameter or a result. -/
structure Field where
  name : Option String
  type : Option String
  deriving DecidableEq, Repr

structure Function where
  name : String
  params : List Field
  results : List Field
  body : List Statement
  deriving DecidableEq, Repr

structure Import where
  localName : Option String
  path : String
  deriving DecidableEq, Repr

structure File where
  package : String
  imports : List Import
  functions : List Function
  deriving DecidableEq, Repr

end DeclaredSource.Outline
