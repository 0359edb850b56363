import DeclaredSource.Declaration.Place
import DeclaredSource.Diagnostic
import DeclaredSource.Json.Basic

/-!
# Declarations that cannot be read

Every error names the node of the declaration that is at fault: the block that lacks an attribute
or has one too many, or the value that is not of the shape it has to be.
-/

namespace DeclaredSource.Declaration

inductive Error where
  | missingAttribute (node : Place) (attr : String)
  | typeMismatch (node : Place) (expected found : Json.Shape)
  | unsupportedKind (node : Place) (construct kind : String) (expected : List String)
  | conflictingAttributes (node : Place) (first second : String)
  | unexpectedBlock (node : Place) (kind block : String)
  deriving DecidableEq, Repr

namespace Error

def node : Error → Place
  | .missingAttribute node _ => node
  | .typeMismatch node _ _ => node
  | .unsupportedKind node _ _ _ => node
  | .conflictingAttributes node _ _ => node
  | .unexpectedBlock node _ _ => node

def message : Error → String
  | .missingAttribute node attr =>
    "missing required attribute `" ++ attr ++ "` in " ++ node.text
  | .typeMismatch node expected found =>
    node.text ++ " must be " ++ expected.phrase ++ ", found " ++ found.phrase
  | .unsupportedKind node construct kind expected =>
    "unsupported " ++ construct ++ " kind `" ++ kind ++ "` in " ++ node.text
      ++ " (expected one of: " ++ ", ".intercalate expected ++ ")"
  | .conflictingAttributes node first second =>
    node.text ++ " sets both `" ++ first ++ "` and `" ++ second ++ "`; use only one"
  | .unexpectedBlock node kind block =>
    node.text ++ " has kind `" ++ kind ++ "` but also sets `" ++ block ++ "`"

def code : Error → String
  | .missingAttribute .. => "caiac::translate::missing_attribute"
  | .typeMismatch .. => "caiac::translate::type_mismatch"
  | .unsupportedKind .. => "caiac::translate::unsupported_construct"
  | .conflictingAttributes .. => "caiac::translate::conflicting_attributes"
  | .unexpectedBlock .. => "caiac::translate::unexpected_block"

def help : Error → Option String
  | .typeMismatch .. =>
    some ("string attributes accept strings, numbers and booleans; blocks must be objects and "
      ++ "lists must be arrays")
  | .unexpectedBlock .. =>
    some "strict translation rejects sub-blocks that do not match the `kind` discriminator"
  | _ => none

def diagnostic (error : Error) : Diagnostic :=
  ⟨error.code, error.message, none, error.help⟩

end Error

end DeclaredSource.Declaration
