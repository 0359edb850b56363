import DeclaredSource.Generation
import DeclaredSource.Storage.Store
import DeclaredSource.Text.LineDiff

/-!
# Managed files

A resource keeps one generated file in step with its declaration. Planning compares the text that
the declaration generates with the text on disk and changes nothing; applying does what the plan
says; creating and updating write the generated text. Text is always generated before the store is
touched.
-/

namespace DeclaredSource

open Storage

inductive ResourceError where
  | generation (error : Generation.Error)
  | storage (error : StoreError)
  deriving DecidableEq, Repr

def ResourceError.diagnostic : ResourceError → Diagnostic
  | .generation error => error.diagnostic
  | .storage error => error.diagnostic

/-- A file as it is known to be on disk. -/
structure FileState where
  filename : String
  contents : String
  deriving DecidableEq, Repr

inductive Outcome where
  | create (contents : String)
  | update (diff : String)
  | noChange
  deriving DecidableEq, Repr

structure Resource where
  store : Store
  mode : Declaration.Mode
  deriving DecidableEq, Repr

namespace Resource

variable {m : Type → Type} [Monad m] [Files m]

def stored {α : Type} (operation : ExceptT StoreError m α) : ExceptT ResourceError m α :=
  operation.adapt .storage

def generate (resource : Resource) (declaration : Json) : ExceptT ResourceError m String :=
  ExceptT.mk (pure ((Generation.generate resource.mode declaration).mapError .generation))

def create (resource : Resource) (filename : String) (declaration : Json) :
    ExceptT ResourceError m FileState := do
  let contents ← resource.generate declaration
  let _ ← stored (resource.store.write filename contents)
  return ⟨filename, contents⟩

/-- What is on disk under a name, whatever put it there. -/
def view (store : Store) (filename : String) : ExceptT ResourceError m FileState := do
  return ⟨filename, ← stored (store.read filename)⟩

def read (resource : Resource) (state : FileState) : ExceptT ResourceError m FileState :=
  view resource.store state.filename

/-- Writes only when the text on disk is another one. -/
def update (resource : Resource) (filename : String) (declaration : Json) :
    ExceptT ResourceError m FileState := do
  let contents ← resource.generate declaration
  let existing ← stored (resource.store.readIfPresent filename)
  if existing = some contents then return ⟨filename, contents⟩
  else
    let _ ← stored (resource.store.write filename contents)
    return ⟨filename, contents⟩

def delete (resource : Resource) (state : FileState) : ExceptT ResourceError m Unit :=
  stored (resource.store.remove state.filename)

def outcome (existing : Option String) (desired : String) : Outcome :=
  match existing with
  | none => .create desired
  | some current =>
    match Text.lineDiff current desired with
    | some diff => .update diff
    | none => .noChange

def compare (resource : Resource) (filename desired : String) :
    ExceptT ResourceError m Outcome := do
  return outcome (← stored (resource.store.readIfPresent filename)) desired

def plan (resource : Resource) (filename : String) (declaration : Json) :
    ExceptT ResourceError m Outcome := do
  resource.compare filename (← resource.generate declaration)

def apply (resource : Resource) (filename : String) (declaration : Json) :
    ExceptT ResourceError m (FileState × Outcome) := do
  let contents ← resource.generate declaration
  let outcome ← resource.compare filename contents
  if outcome = .noChange then return (⟨filename, contents⟩, outcome)
  else
    let _ ← stored (resource.store.write filename contents)
    return (⟨filename, contents⟩, outcome)

end Resource

end DeclaredSource
