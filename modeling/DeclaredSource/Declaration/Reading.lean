import DeclaredSource.Declaration.Block
import DeclaredSource.Outline.Basic

/-!
# From declarations to outlines

A declaration is read block by block in a fixed order and stops at the first fault. The kind of a
statement, an expression or a literal says which of its attributes are read. Lenient reading passes
over the others; strict reading refuses a block that sets an attribute of another kind, before the
attributes of its own kind are looked at.
-/

namespace DeclaredSource.Declaration

inductive Mode where
  | lenient | strict
  deriving DecidableEq, Repr

def readLiteral (block : Block) : Except Error Outline.Literal := do
  let kind ← block.kind LiteralKind
  return .ofKind kind (← block.requiredText "value")

def readSelector (block : Block) : Except Error Outline.Selector := do
  let base ← block.optionalText "from"
  let member ← block.requiredText "prop"
  return ⟨base, member⟩

def readCall (block : Block) : Except Error Outline.Expression := do
  let callee ← readSelector (← block.requiredBlock "func")
  let arguments ← (← block.blocks "args").mapM readLiteral
  return .call callee arguments

def readPayload (payload : Block) : ExpressionKind → Except Error Outline.Expression
  | .call => readCall payload
  | .selector => .selector <$> readSelector payload
  | .identifier => .identifier <$> payload.requiredText "name"
  | .literal => .literal <$> readLiteral payload

/-- The first payload of another kind, in the order of the kinds. -/
def strayPayload? (block : Block) (kind : ExpressionKind) : Option ExpressionKind :=
  (Vocabulary.kinds : List ExpressionKind).find? fun other ↦
    other ≠ kind && block.has (Vocabulary.spelling other)

def refuseStray (mode : Mode) (block : Block) (kind : ExpressionKind) : Except Error Unit :=
  match mode, strayPayload? block kind with
  | .strict, some other =>
    .error (.unexpectedBlock block.place (Vocabulary.spelling kind) (Vocabulary.spelling other))
  | _, _ => .ok ()

def readExpression (mode : Mode) (block : Block) : Except Error Outline.Expression := do
  let kind ← block.kind ExpressionKind
  refuseStray mode block kind
  readPayload (← block.requiredBlock (Vocabulary.spelling kind)) kind

def readExpressionStatement (mode : Mode) (block : Block) : Except Error Outline.Statement :=
  if mode = .strict && block.has "results" then
    .error (.unexpectedBlock block.place (Vocabulary.spelling StatementKind.expression) "results")
  else do
    return .expression (← readExpression mode (← block.requiredBlock "expression"))

/-- One value may be given by itself; several are given as a list. -/
def readReturn (mode : Mode) (block : Block) : Except Error Outline.Statement :=
  if block.has "expression" && block.has "results" then
    .error (.conflictingAttributes block.place "expression" "results")
  else do
    match ← block.optionalBlock "expression" with
    | some value => return .ret [← readExpression mode value]
    | none => return .ret (← (← block.blocks "results").mapM (readExpression mode))

def readStatement (mode : Mode) (block : Block) : Except Error Outline.Statement := do
  match ← block.kind StatementKind with
  | .expression => readExpressionStatement mode block
  | .ret => readReturn mode block

def readField (block : Block) : Except Error Outline.Field := do
  let name ← block.optionalText "name"
  let type ← block.optionalText "type"
  return ⟨name, type⟩

def readFields (block : Block) (attr : String) : Except Error (List Outline.Field) := do
  (← block.blocks attr).mapM readField

def readSignature (signature : Option Block) :
    Except Error (List Outline.Field × List Outline.Field) :=
  match signature with
  | none => .ok ([], [])
  | some block => do
    let params ← readFields block "params"
    let results ← readFields block "results"
    return (params, results)

def readBody (mode : Mode) (body : Option Block) : Except Error (List Outline.Statement) :=
  match body with
  | none => .ok []
  | some block => do (← block.blocks "statements").mapM (readStatement mode)

def readFunction (mode : Mode) (block : Block) : Except Error Outline.Function := do
  let name ← block.requiredText "name"
  let (params, results) ← readSignature (← block.optionalBlock "signature")
  let body ← readBody mode (← block.optionalBlock "body")
  return ⟨name, params, results, body⟩

/-- An empty local name is none. -/
def readImport (block : Block) : Except Error Outline.Import := do
  let localName ← block.optionalText "name"
  let path ← block.requiredText "path"
  return ⟨localName.filter (· ≠ ""), path⟩

def read (mode : Mode) (declaration : Json) : Except Error Outline.File := do
  let root ← Block.ofJson declaration .root
  let package ← root.requiredText "packageName"
  let imports ← (← root.blocks "imports").mapM readImport
  let functions ← (← root.blocks "functions").mapM (readFunction mode)
  return ⟨package, imports, functions⟩

end DeclaredSource.Declaration
