import DeclaredSource.Storage.Store

/-!
# Choosing the base directory

The base directory is the one asked for, else the one that the environment names, else the working
directory. An empty choice counts as none.
-/

namespace DeclaredSource.Storage.Settings

def environmentName : String := "CAIAC_BASE_DIR"

def chosen? (explicit environment : Option String) : Option String :=
  [explicit, environment].findSome? fun choice ↦ choice.filter (· ≠ "")

def baseDirectory {m : Type → Type} [Monad m] [Files m] (explicit environment : Option String) :
    ExceptT StoreError m Path :=
  match chosen? explicit environment with
  | some text => return Path.ofString text
  | none => Store.onPath .findWorkingDirectory (Path.ofString ".") Files.workingDirectory

end DeclaredSource.Storage.Settings
