/-!
# Vocabularies

Declarations name the kind of a statement, an expression or a literal by a fixed spelling. A
vocabulary is such a closed set of kinds with its spellings, in the order in which a message lists
them; reading a spelling gives the kind back and refuses every other text.
-/

namespace DeclaredSource

class Vocabulary (κ : Type) where
  /-- What the kinds are kinds of. -/
  construct : String
  kinds : List κ
  spelling : κ → String

namespace Vocabulary

variable {κ : Type} [Vocabulary κ]

def read? (text : String) : Option κ :=
  kinds.find? fun kind ↦ spelling kind = text

variable (κ) in
def spellings : List String :=
  (kinds : List κ).map spelling

end Vocabulary

inductive ExpressionKind where
  | call | selector | identifier | literal
  deriving DecidableEq, Repr

inductive StatementKind where
  | expression | ret
  deriving DecidableEq, Repr

inductive LiteralKind where
  | identifier | string | int
  deriving DecidableEq, Repr

instance : Vocabulary ExpressionKind where
  construct := "expression"
  kinds := [.call, .selector, .identifier, .literal]
  spelling
    | .call => "call"
    | .selector => "selector"
    | .identifier => "identifier"
    | .literal => "literal"

instance : Vocabulary StatementKind where
  construct := "statement"
  kinds := [.expression, .ret]
  spelling
    | .expression => "expression"
    | .ret => "return"

instance : Vocabulary LiteralKind where
  construct := "literal"
  kinds := [.identifier, .string, .int]
  spelling
    | .identifier => "identifier"
    | .string => "string"
    | .int => "int"

theorem read?_spelling_expression (kind : ExpressionKind) :
    Vocabulary.read? (Vocabulary.spelling kind) = some kind := by
  cases kind <;> decide

theorem read?_spelling_statement (kind : StatementKind) :
    Vocabulary.read? (Vocabulary.spelling kind) = some kind := by
  cases kind <;> decide

theorem read?_spelling_literal (kind : LiteralKind) :
    Vocabulary.read? (Vocabulary.spelling kind) = some kind := by
  cases kind <;> decide

end DeclaredSource
