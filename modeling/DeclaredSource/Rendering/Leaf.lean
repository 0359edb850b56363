import DeclaredSource.Outline.Basic
import DeclaredSource.Rendering.Error
import DeclaredSource.Source.Basic

/-!
# Leaves of a rendered tree

Names are checked where they are put into a tree, under a description of their place; literals are
not checked and keep their text exactly. A type is one name, or a package and a member with a
point between them: the text is cut at its first point, so any later one is a fault of the member.
-/

namespace DeclaredSource.Rendering

def ident (name place : String) : Except Error String :=
  match Identifier.issue? name with
  | some issue => .error (.invalidIdentifier place name issue)
  | none => .ok name

def optionalIdent (name : Option String) (place : String) : Except Error (Option String) :=
  match name with
  | none => .ok none
  | some name => do return some (← ident name place)

/-- Between double quotes, with nothing escaped. -/
def stringLiteral (text : String) : Source.Literal :=
  ⟨.string, "\"" ++ text ++ "\""⟩

def intLiteral (text : String) : Source.Literal :=
  ⟨.int, text⟩

def selectorExpr (base : Option String) (member : String) : Source.Expr :=
  match base with
  | some base => .selector (.ident base) member
  | none => .ident member

/-- The text before the first point and all of the text after it. -/
def cutAtPoint? (text : String) : Option (String × String) :=
  match text.toList.span (· ≠ '.') with
  | (_, []) => none
  | (before, _ :: after) => some (String.ofList before, String.ofList after)

def typeReference (text place : String) : Except Error Source.Expr :=
  match cutAtPoint? text with
  | some (package, member) => do
    let package ← ident package place
    let member ← ident member place
    return selectorExpr (some package) member
  | none => do return .ident (← ident text place)

def literal : Outline.Literal → Source.Expr
  | .identifier text => .ident text
  | .string text => .literal (stringLiteral text)
  | .int text => .literal (intLiteral text)

end DeclaredSource.Rendering
