import DeclaredSource.Diagnostic
import DeclaredSource.Identifier

/-!
# Outlines that cannot be rendered

An outline is refused for a name that is not an identifier, an import without a path, a field
without either part, or a field list that mixes named and unnamed fields. Each error says where,
by a short description of the place.
-/

namespace DeclaredSource.Rendering

namespace Place

def packageClause : String := "package clause"

def importAlias (index : Nat) : String :=
  "import " ++ toString index ++ " alias"

def functionName (index : Nat) : String :=
  "function " ++ toString index ++ " name"

def field (role : String) (index : Nat) (function : String) : String :=
  role ++ " " ++ toString index ++ " of `" ++ function ++ "`"

def fieldList (role function : String) : String :=
  role ++ " list of `" ++ function ++ "`"

def statement (index : Nat) (function : String) : String :=
  "statement " ++ toString index ++ " of `" ++ function ++ "`"

end Place

inductive Error where
  | invalidIdentifier (place name : String) (issue : Identifier.Issue)
  | emptyImportPath (index : Nat)
  | degenerateField (place : String)
  | mixedFieldNames (place : String)
  deriving DecidableEq, Repr

namespace Error

def message : Error → String
  | .invalidIdentifier place name issue =>
    "invalid identifier `" ++ name ++ "` for " ++ place ++ ": " ++ issue.message
  | .emptyImportPath index => "import " ++ toString index ++ " has an empty path"
  | .degenerateField place => place ++ " has neither a name nor a type"
  | .mixedFieldNames place => place ++ " mixes named and unnamed fields"

def code : Error → String
  | .invalidIdentifier .. => "caiac::render::invalid_identifier"
  | .emptyImportPath _ => "caiac::render::empty_import_path"
  | .degenerateField _ => "caiac::render::degenerate_field"
  | .mixedFieldNames _ => "caiac::render::mixed_field_names"

def help : Error → Option String
  | .invalidIdentifier .. =>
    some ("identifiers start with an ASCII letter or `_`, continue with ASCII letters, digits, "
      ++ "or `_`, and cannot be Go keywords")
  | .emptyImportPath _ => none
  | .degenerateField _ => some "give the field a `type`, a `name`, or both"
  | .mixedFieldNames _ =>
    some ("either name every field (the last one must also have a type) or name none of them")

def diagnostic (error : Error) : Diagnostic :=
  ⟨error.code, error.message, none, error.help⟩

end Error

end DeclaredSource.Rendering
