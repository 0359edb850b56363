import DeclaredSource.Diagnostic
import DeclaredSource.Storage.Files

/-!
# Files below a base directory

A store keeps text files under names that are resolved against its base directory. Writing makes
the directories that are missing and replaces the file as a whole. Removing a file also removes the
directories that it leaves empty, from the innermost outwards and never the base directory itself;
this is done by normalised paths only, so a name that climbs out of the base directory empties
nothing outside it.
-/

namespace DeclaredSource.Storage

inductive Action where
  | createDirectory
  | stage
  | write
  | setPermissions
  | replace
  | read
  | remove
  | list
  | removeEmptyDirectory
  | findWorkingDirectory
  deriving DecidableEq, Repr

def Action.phrase : Action → String
  | .createDirectory => "create directory"
  | .stage => "create temporary file in"
  | .write => "write"
  | .setPermissions => "set permissions on"
  | .replace => "replace"
  | .read => "read"
  | .remove => "remove"
  | .list => "list directory"
  | .removeEmptyDirectory => "remove empty directory"
  | .findWorkingDirectory => "determine the working directory"

structure StoreError where
  action : Action
  path : Path
  cause : FileError
  deriving DecidableEq, Repr

namespace StoreError

def isNotFound (error : StoreError) : Bool :=
  error.cause = .notFound

def diagnostic (error : StoreError) : Diagnostic :=
  ⟨"caiac::provider::io", "unable to " ++ error.action.phrase ++ " `" ++ error.path.text ++ "`",
    some error.cause.message, none⟩

end StoreError

structure Store where
  baseDirectory : Path
  deriving DecidableEq, Repr

namespace Store

variable {m : Type → Type} [Monad m] [Files m]

def onPath {α : Type} (action : Action) (path : Path) (operation : m (Except FileError α)) :
    ExceptT StoreError m α :=
  ExceptT.mk do
    match ← operation with
    | .ok value => return .ok value
    | .error cause => return .error ⟨action, path, cause⟩

def resolve (store : Store) (filename : String) : Path :=
  store.baseDirectory.join (Path.ofString filename)

/-- The directory that a file's path puts it in. -/
def directoryOf (store : Store) (path : Path) : Path :=
  path.parent?.getD store.baseDirectory

def replace (directory path : Path) (contents : ByteArray) : ExceptT StoreError m Unit :=
  ExceptT.mk do
    match ← Files.replaceFile directory path contents with
    | .ok () => return .ok ()
    | .error (.staging cause) => return .error ⟨.stage, directory, cause⟩
    | .error (.writing cause) => return .error ⟨.write, path, cause⟩
    | .error (.permitting cause) => return .error ⟨.setPermissions, path, cause⟩
    | .error (.placing cause) => return .error ⟨.replace, path, cause⟩

def write (store : Store) (filename contents : String) : ExceptT StoreError m Path := do
  let path := store.resolve filename
  let directory := store.directoryOf path
  onPath .createDirectory directory (Files.makeDirectories directory)
  replace directory path contents.toUTF8
  return path

def read (store : Store) (filename : String) : ExceptT StoreError m String := do
  let path := store.resolve filename
  let contents ← onPath .read path (Files.readFile path)
  match String.fromUTF8? contents with
  | some text => return text
  | none => throw ⟨.read, path, .notText⟩

/-- A missing file is no failure. -/
def readIfPresent (store : Store) (filename : String) : ExceptT StoreError m (Option String) :=
  ExceptT.mk do
    match ← (store.read filename).run with
    | .ok text => return .ok (some text)
    | .error error => return if error.isNotFound then .ok none else .error error

/-- The names of the directories between the base directory and a path, outermost first. None when
the path is not below the base directory by its normalised form. -/
def directoriesBetween (base path : Path) : List String :=
  match Path.stripComponents? base.components path.components with
  | none => []
  | some inside =>
    (inside.dropLast.mapM Path.Component.name?).getD []

def prune (directory : Path) : ExceptT StoreError m Bool :=
  ExceptT.mk do
    match ← Files.pruneDirectory directory with
    | .ok removed => return .ok removed
    | .error (.listing cause) => return .error ⟨.list, directory, cause⟩
    | .error (.removing cause) => return .error ⟨.removeEmptyDirectory, directory, cause⟩

/-- Goes outwards from the innermost directory as long as each is empty. -/
def removeEmpty (base : Path) : List String → ExceptT StoreError m Unit
  | [] => return ()
  | name :: outer => do
    if ← prune (base.join ⟨(name :: outer).reverse⟩) then removeEmpty base outer else return ()

def remove (store : Store) (filename : String) : ExceptT StoreError m Unit := do
  let path := store.resolve filename
  onPath .remove path (Files.removeFile path)
  let base := store.baseDirectory.normalize
  removeEmpty base (directoriesBetween base path.normalize).reverse

end Store

end DeclaredSource.Storage
