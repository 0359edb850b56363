import DeclaredSource.Declaration.Reading
import DeclaredSource.Rendering.File

/-!
# Generating source text

A declaration becomes text in two steps: it is read into an outline, and the outline is rendered.
What fails is one of the two.
-/

namespace DeclaredSource.Generation

inductive Error where
  | declaration (error : Declaration.Error)
  | rendering (error : Rendering.Error)
  deriving DecidableEq, Repr

def Error.diagnostic : Error → Diagnostic
  | .declaration error => error.diagnostic
  | .rendering error => error.diagnostic

def generate (mode : Declaration.Mode) (declaration : Json) : Except Error String := do
  let outline ← (Declaration.read mode declaration).mapError .declaration
  (Rendering.text outline).mapError .rendering

end DeclaredSource.Generation
