import DeclaredSource.Storage.FileTree
import DeclaredSource.Storage.Files

/-!
# Operations on a file tree

A disk is a file tree with a working directory, and every operation on files is a function on it. A
path is walked name by name from the root or from the working directory; every name on the way has
to be in a directory, a point stays and two points go up. Operations that make, replace or remove an
entry walk to its parent first and refuse a path whose last name is a point or two points. The
working directory can be removed as well: it then has no path and nothing in it, and two points
still lead out of it, also when another directory takes its location. What is left on the way to it
is always a directory. A failing operation gives no new disk.

The tree is all that there is to a disk. All permissions are granted, nothing is mounted or linked
anywhere in it, and space does not run out and devices do not fail. So whether an operation fails
is decided by the path, the entries on the way along it and what stands where it leads.
-/

namespace DeclaredSource.Storage

def longestName : Nat := 255

def longestPath : Nat := 4095

/-- A directory or file that a walk has come to. As many of the directories that its location leads
through as `removed` says, counted from the innermost, have been removed since. -/
structure Standpoint where
  place : Location
  removed : Nat
  deriving DecidableEq, Repr

namespace Standpoint

def root : Standpoint :=
  ⟨[], 0⟩

/-- The innermost location on the way that is still what it was. -/
def kept (standpoint : Standpoint) : Location :=
  standpoint.place.drop standpoint.removed

def outside (standpoint : Standpoint) : Standpoint :=
  ⟨standpoint.place.tail, standpoint.removed - 1⟩

/-- The directories of a standpoint are removed from the innermost outwards. -/
def afterRemoving (standpoint : Standpoint) (place : Location) : Standpoint :=
  if standpoint.kept = place then ⟨standpoint.place, standpoint.removed + 1⟩ else standpoint

theorem kept_afterRemoving (standpoint : Standpoint) (name : String) (place : Location) :
    (standpoint.afterRemoving (name :: place)).kept =
      if standpoint.kept = name :: place then place else standpoint.kept := by
  rw [afterRemoving]
  split
  · next h => simpa [kept] using congrArg List.tail h
  · rfl

end Standpoint

namespace FileTree

/-- What a walk stands at. Only directories are kept by standing in them. -/
def entryAt (tree : FileTree) (standpoint : Standpoint) : Option Entry :=
  if standpoint.removed = 0 then tree.find standpoint.place else some .directory

def isFile (tree : FileTree) (standpoint : Standpoint) : Bool :=
  match tree.entryAt standpoint with
  | some (.file _) => true
  | _ => false

/-- What a name leads to. -/
def enter (tree : FileTree) (standpoint : Standpoint) (name : String) :
    Except FileError Standpoint :=
  if tree.isFile standpoint then .error .notADirectory
  else if name = "." then .ok standpoint
  else if name = ".." then .ok standpoint.outside
  else if standpoint.removed ≠ 0 then .error .notFound
  else if longestName < name.utf8ByteSize then .error .nameTooLong
  else if tree.find (name :: standpoint.place) = none then .error .notFound
  else .ok ⟨name :: standpoint.place, 0⟩

def walk (tree : FileTree) : Standpoint → List String → Except FileError Standpoint
  | standpoint, [] => .ok standpoint
  | standpoint, name :: rest =>
    match tree.enter standpoint name with
    | .error cause => .error cause
    | .ok next => tree.walk next rest

end FileTree

structure Disk where
  tree : FileTree
  workingDirectory : Standpoint
  stands : tree.find workingDirectory.kept = some .directory

namespace Disk

/-- Nothing but the root. -/
def bare : Disk :=
  ⟨FileTree.bare, .root, rfl⟩

def holdsNul (path : Path) : Bool :=
  path.text.toList.contains '\x00'

/-- Paths that no operation looks at. -/
def refusal? (path : Path) : Option FileError :=
  if holdsNul path then some .nulInPath
  else if path = Path.empty then some .notFound
  else if longestPath < path.text.utf8ByteSize then some .nameTooLong
  else none

def start (disk : Disk) (path : Path) : Standpoint :=
  if path.isAbsolute then .root else disk.workingDirectory

/-- Where a path leads to, if everything on it is there. -/
def locate (disk : Disk) (path : Path) : Except FileError Standpoint :=
  match refusal? path with
  | some cause => .error cause
  | none =>
    match disk.tree.walk (disk.start path) path.names with
    | .error cause => .error cause
    | .ok standpoint =>
      if path.endsOpen && disk.tree.isFile standpoint then .error .notADirectory
      else .ok standpoint

/-- The location and the name of an entry that need not be there; nothing when the last name is not
a name of an entry. -/
def target (disk : Disk) (path : Path) : Except FileError (Option (Location × String)) :=
  match refusal? path with
  | some cause => .error cause
  | none =>
    match path.names.getLast? with
    | none => .ok none
    | some last =>
      match disk.tree.walk (disk.start path) path.names.dropLast with
      | .error cause => .error cause
      | .ok standpoint =>
        if disk.tree.isFile standpoint then .error .notADirectory
        else if last = "." ∨ last = ".." then .ok none
        else if standpoint.removed ≠ 0 then .error .notFound
        else .ok (some (standpoint.place, last))

def readFile (disk : Disk) (path : Path) : Except FileError ByteArray :=
  match disk.locate path with
  | .error cause => .error cause
  | .ok standpoint =>
    match disk.tree.entryAt standpoint with
    | none => .error .notFound
    | some .directory => .error .isADirectory
    | some (.file contents) => .ok contents

/-- Puts an entry where there is none but a file. -/
def put (disk : Disk) (place : Location) (name : String) (entry : Entry) :
    Except FileError Disk :=
  if fits : disk.tree.find (name :: place) = some .directory then .error .isADirectory
  else if parent : disk.tree.find place = some .directory then
    .ok { disk with
      tree := disk.tree.insert place name entry parent fits
      stands := by
        rw [FileTree.find_insert, if_neg]
        · exact disk.stands
        · exact fun h ↦ fits (h ▸ disk.stands) }
  else .error .notFound

def makeDirectory (disk : Disk) (path : Path) : Except FileError Disk :=
  match disk.target path with
  | .error cause => .error cause
  | .ok none => .error .alreadyExists
  | .ok (some (place, name)) =>
    if longestName < name.utf8ByteSize then .error .nameTooLong
    else if disk.tree.find (name :: place) ≠ none then .error .alreadyExists
    else disk.put place name .directory

def changeDirectory (disk : Disk) (path : Path) : Except FileError Disk :=
  match disk.locate path with
  | .error cause => .error cause
  | .ok standpoint =>
    if stands : disk.tree.find standpoint.kept = some .directory then
      .ok ⟨disk.tree, standpoint, stands⟩
    else .error .notADirectory

/-- A working directory that has been removed has no path. -/
def workingDirectoryPath (disk : Disk) : Except FileError Path :=
  if disk.workingDirectory.removed = 0 then
    .ok (Path.assemble .root disk.workingDirectory.place.reverse)
  else .error .notFound

def absolute (disk : Disk) (path : Path) : Except FileError Path :=
  if path.isAbsolute then .ok path else disk.workingDirectoryPath.map (·.join path)

/-- As long as the names that contents are staged under. -/
def stagedName : String := ".tmp000000"

/-- Nothing but a directory can have contents staged in it. They are staged under an absolute
path, which a directory below a removed working directory has not. -/
def stage (disk : Disk) (directory : Path) : Except FileError Unit :=
  match disk.absolute directory with
  | .error cause => .error cause
  | .ok directory =>
    match disk.target (directory.join ⟨[stagedName]⟩) with
    | .error cause => .error cause
    | .ok none => .error .notFound
    | .ok (some (place, _)) =>
      if disk.tree.find place = some .directory then .ok () else .error .notFound

/-- Puts a file in the target's place. A trailing slash asks for a directory, which a file is not.
A null character does not get as far as for the other operations: the argument is invalid. -/
def placeFile (disk : Disk) (path : Path) (contents : ByteArray) : Except FileError Disk :=
  if holdsNul path then .error .invalidArgument
  else
    match disk.target path with
    | .error cause => .error cause
    | .ok none => .error .busy
    | .ok (some (place, name)) =>
      if longestName < name.utf8ByteSize then .error .nameTooLong
      else if path.endsOpen then .error .notADirectory
      else disk.put place name (.file contents)

def replaceFile (disk : Disk) (directory path : Path) (contents : ByteArray) :
    Except ReplaceError Disk :=
  match disk.stage directory with
  | .error cause => .error (.staging cause)
  | .ok () =>
    match disk.placeFile path contents with
    | .error cause => .error (.placing cause)
    | .ok disk => .ok disk

def removeFile (disk : Disk) (path : Path) : Except FileError Disk :=
  match disk.target path with
  | .error cause => .error cause
  | .ok none => .error .isADirectory
  | .ok (some (place, name)) =>
    if longestName < name.utf8ByteSize then .error .nameTooLong
    else
      match found : disk.tree.find (name :: place) with
      | none => .error .notFound
      | some .directory => .error .isADirectory
      | some (.file _) =>
        if path.endsOpen then .error .notADirectory
        else
          .ok { disk with
            tree := disk.tree.remove (name :: place) (FileTree.isChildless_of_find_file found)
            stands := by
              rw [FileTree.find_remove, if_neg]
              · exact disk.stands
              · rintro ⟨h, -⟩
                exact absurd (found.symm.trans (h ▸ disk.stands)) (by simp) }

def isEmptyDirectory (disk : Disk) (path : Path) : Except FileError Bool :=
  match disk.locate path with
  | .error cause => .error cause
  | .ok standpoint =>
    match disk.tree.entryAt standpoint with
    | none => .error .notFound
    | some (.file _) => .error .notADirectory
    | some .directory => .ok (standpoint.removed ≠ 0 || disk.tree.isChildless standpoint.place)

def removeDirectory (disk : Disk) (path : Path) : Except FileError Disk :=
  match disk.target path with
  | .error cause => .error cause
  | .ok none =>
    match path.names.getLast? with
    | none => .error .busy
    | some last => .error (if last = "." then .invalidArgument else .notEmpty)
  | .ok (some (place, name)) =>
    if longestName < name.utf8ByteSize then .error .nameTooLong
    else
      match disk.tree.find (name :: place) with
      | none => .error .notFound
      | some (.file _) => .error .notADirectory
      | some .directory =>
        if alone : disk.tree.isChildless (name :: place) = true then
          .ok {
            tree := disk.tree.remove (name :: place) alone
            workingDirectory := disk.workingDirectory.afterRemoving (name :: place)
            stands := by
              rw [Standpoint.kept_afterRemoving, FileTree.find_remove]
              split
              · next h =>
                rw [if_neg]
                · exact FileTree.find_parent (by rw [← h, disk.stands]; simp)
                · exact fun hself ↦ FileTree.ne_cons_self name place hself.1
              · next h =>
                rw [if_neg]
                · exact disk.stands
                · exact fun hself ↦ h hself.1 }
        else .error .notEmpty

/-- The directory is looked into first, and kept if there is anything in it. -/
def pruneDirectory (disk : Disk) (path : Path) : Except PruneError (Bool × Disk) :=
  match disk.isEmptyDirectory path with
  | .error cause => .error (.listing cause)
  | .ok false => .ok (false, disk)
  | .ok true =>
    match disk.removeDirectory path with
    | .error cause => .error (.removing cause)
    | .ok disk => .ok (true, disk)

/-- An operation that changes nothing. -/
def look {α : Type} (operation : Disk → α) : StateM Disk α :=
  fun disk ↦ (operation disk, disk)

/-- An operation that answers and changes the disk, unless it fails. -/
def answer {ε α : Type} (operation : Disk → Except ε (α × Disk)) : StateM Disk (Except ε α) :=
  fun disk ↦
    match operation disk with
    | .ok (value, changed) => (.ok value, changed)
    | .error error => (.error error, disk)

def change {ε : Type} (operation : Disk → Except ε Disk) : StateM Disk (Except ε Unit) :=
  answer fun disk ↦ (operation disk).map ((), ·)

instance : Files (StateM Disk) where
  readFile path := look (·.readFile path)
  makeDirectory path := change (·.makeDirectory path)
  replaceFile directory path contents := change (·.replaceFile directory path contents)
  removeFile path := change (·.removeFile path)
  pruneDirectory path := answer (·.pruneDirectory path)
  workingDirectory := look workingDirectoryPath

end Disk

end DeclaredSource.Storage
