import DeclaredSource.Storage.FileError
import DeclaredSource.Storage.Path

/-!
# Operations on files

The few operations that keeping generated files needs of a file system, each of which either
happens or fails for a cause. A file is replaced as a whole: its new contents are staged in a
directory and then put in the target's place, so the target never holds part of them. A directory
is pruned by looking into it and removing it when there is nothing in it.
-/

namespace DeclaredSource.Storage

/-- What fails: making the staged file, writing it, setting its permissions, or putting it in the
target's place. -/
inductive ReplaceError where
  | staging (cause : FileError)
  | writing (cause : FileError)
  | permitting (cause : FileError)
  | placing (cause : FileError)
  deriving DecidableEq, Repr

inductive PruneError where
  | listing (cause : FileError)
  | removing (cause : FileError)
  deriving DecidableEq, Repr

class Files (m : Type → Type) where
  readFile : Path → m (Except FileError ByteArray)
  makeDirectory : Path → m (Except FileError Unit)
  replaceFile : (directory target : Path) → ByteArray → m (Except ReplaceError Unit)
  removeFile : Path → m (Except FileError Unit)
  /-- Whether the directory was empty, and so is gone now. -/
  pruneDirectory : Path → m (Except PruneError Bool)
  workingDirectory : m (Except FileError Path)

namespace Files

variable {m : Type → Type} [Monad m] [Files m]

/-- Reading a directory as a file fails in a way of its own. -/
def isDirectory (path : Path) : m Bool := do
  match ← readFile path with
  | .error .isADirectory => return true
  | _ => return false

/-- Makes the first directory of a chain of ancestors, making the others first where they are
missing. A failure does not matter where there is a directory already. -/
def makeChain : List Path → m (Except FileError Unit)
  | [] => return .error (.other "failed to create whole tree")
  | path :: outer =>
    if path = Path.empty then return .ok ()
    else do
      match ← makeDirectory path with
      | .ok () => return .ok ()
      | .error .notFound =>
        match ← makeChain outer with
        | .error cause => return .error cause
        | .ok () => tolerate path (← makeDirectory path)
      | .error cause => tolerate path (.error cause)
where
  tolerate (path : Path) (result : Except FileError Unit) : m (Except FileError Unit) := do
    match result with
    | .ok () => return .ok ()
    | .error cause => if ← isDirectory path then return .ok () else return .error cause

def makeDirectories (path : Path) : m (Except FileError Unit) :=
  makeChain path.ancestors

end Files

end DeclaredSource.Storage
