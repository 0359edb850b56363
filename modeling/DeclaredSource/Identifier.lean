import DeclaredSource.Text.QuotedChar

/-!
# Identifiers

An identifier is an ASCII letter or an underscore, followed by ASCII letters, digits and
underscores, and is not a reserved word. Every other text has one issue, found from left to right:
emptiness, a leading digit, the first character that may not stand where it does, and last of all
being reserved.
-/

namespace DeclaredSource.Identifier

inductive Issue where
  | empty
  | leadingDigit
  | invalidChar (culprit : Char)
  | keyword
  deriving DecidableEq, Repr

def Issue.message : Issue → String
  | .empty => "identifier is empty"
  | .leadingDigit => "identifier starts with a digit"
  | .invalidChar culprit => "identifier contains invalid character " ++ Text.quotedChar culprit
  | .keyword => "identifier is a reserved Go keyword"

def keywords : List String :=
  ["break", "case", "chan", "const", "continue", "default", "defer", "else", "fallthrough", "for",
    "func", "go", "goto", "if", "import", "interface", "map", "package", "range", "return",
    "select", "struct", "switch", "type", "var"]

def isKeyword (name : String) : Bool :=
  keywords.contains name

def isLetter (c : Char) : Bool :=
  c = '_' || c.isAlpha

def isDigit (c : Char) : Bool :=
  c.isDigit

/-- Whether the character may stand after the first place. -/
def continues (c : Char) : Bool :=
  isLetter c || isDigit c

/-- What keeps the text from being an identifier, if anything does. -/
def issue? (name : String) : Option Issue :=
  match name.toList with
  | [] => some .empty
  | first :: rest =>
    if isDigit first then some .leadingDigit
    else if !isLetter first then some (.invalidChar first)
    else
      match rest.find? (!continues ·) with
      | some culprit => some (.invalidChar culprit)
      | none => if isKeyword name then some .keyword else none

def isValid (name : String) : Bool :=
  (issue? name).isNone

end DeclaredSource.Identifier
