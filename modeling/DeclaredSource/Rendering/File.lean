import DeclaredSource.Rendering.Leaf
import DeclaredSource.Source.Printing

/-!
# From outlines to source trees

Rendering goes through an outline in order and stops at the first fault: the package name, the
imports, then every function with its name, parameters, results and statements. A field list is
checked as a whole, first for fields without either part and then for a mixture of named and
unnamed fields, before any name or type in it is looked at.
-/

namespace DeclaredSource.Rendering

def selector (place : String) (selector : Outline.Selector) : Except Error Source.Expr := do
  let base ← optionalIdent selector.base place
  let member ← ident selector.member place
  return selectorExpr base member

def expression (place : String) : Outline.Expression → Except Error Source.Expr
  | .call callee arguments => do
    return .call (← selector place callee) (arguments.map literal)
  | .selector s => selector place s
  | .literal l => .ok (literal l)
  | .identifier name => do return .ident (← ident name place)

def statement (place : String) : Outline.Statement → Except Error Source.Stmt
  | .expression e => do return .expr (← expression place e)
  | .ret values => do return .ret (← values.mapM (expression place))

def body (function : String) (statements : List Outline.Statement) :
    Except Error (List Source.Stmt) :=
  statements.zipIdx.mapM fun (s, index) ↦ statement (Place.statement index function) s

inductive Role where
  | parameter | result
  deriving DecidableEq, Repr

def Role.text : Role → String
  | .parameter => "parameter"
  | .result => "result"

def isDegenerate (field : Outline.Field) : Bool :=
  field.name.isNone && field.type.isNone

/-- Whether the list cannot be read as all named or all unnamed. A name without a type shares the
type of the next field that has one, so the last name of a named list needs its own. -/
def isMixed (fields : List Outline.Field) : Bool :=
  let named := fields.any fun field ↦ field.name.isSome && field.type.isSome
  let nameOnly := fields.any (·.type.isNone)
  let typeOnly := fields.any (·.name.isNone)
  let untypedTail := fields.getLast?.any (·.type.isNone)
  (named && (typeOnly || untypedTail)) || (nameOnly && typeOnly)

def field (place : String) (field : Outline.Field) : Except Error Source.Field := do
  let name ← optionalIdent field.name place
  let type ← field.type.mapM fun type ↦ typeReference type place
  return ⟨name, type⟩

def fieldList (function : String) (role : Role) (fields : List Outline.Field) :
    Except Error (List Source.Field) :=
  match fields.findIdx? isDegenerate with
  | some index => .error (.degenerateField (Place.field role.text index function))
  | none =>
    if isMixed fields then .error (.mixedFieldNames (Place.fieldList role.text function))
    else fields.zipIdx.mapM fun (f, index) ↦ field (Place.field role.text index function) f

def importSpec (index : Nat) (spec : Outline.Import) : Except Error Source.ImportSpec :=
  if spec.path = "" then .error (.emptyImportPath index)
  else do
    return ⟨← optionalIdent spec.localName (Place.importAlias index), stringLiteral spec.path⟩

def importGroup (imports : List Outline.Import) : Except Error (List Source.Decl) :=
  if imports = [] then .ok []
  else do
    return [.imports (← imports.zipIdx.mapM fun (spec, index) ↦ importSpec index spec)]

def function (index : Nat) (function : Outline.Function) : Except Error Source.Func := do
  let name ← ident function.name (Place.functionName index)
  let params ← fieldList function.name .parameter function.params
  let results ← fieldList function.name .result function.results
  let body ← body function.name function.body
  return ⟨name, params, results, body⟩

def file (outline : Outline.File) : Except Error Source.File := do
  let package ← ident outline.package Place.packageClause
  let imports ← importGroup outline.imports
  let functions ← outline.functions.zipIdx.mapM fun (f, index) ↦ function index f
  return ⟨package, imports ++ functions.map .func⟩

def text (outline : Outline.File) : Except Error String := do
  return (← file outline).print

end DeclaredSource.Rendering
