import DeclaredSource.CommandLine.Command

/-!
# The program

Carries the operations on files out on the real file system, runs the command line on it, and
prints what the run comes to.
-/

namespace DeclaredSource.Program

open Storage

/-- The number of a cause; the runtime negates some of them. -/
def errorNumber (code : UInt32) : UInt32 :=
  if code < 0x80000000 then code else 0 - code

/-- A cause that is not among the foreseen ones is told by its description and its number. -/
def numbered (code : UInt32) (details : String) : FileError :=
  match errorNumber code with
  | 2 => .notFound
  | 16 => .busy
  | 17 => .alreadyExists
  | 20 => .notADirectory
  | 21 => .isADirectory
  | 22 => .invalidArgument
  | 36 => .nameTooLong
  | 39 => .notEmpty
  | number => .other (details ++ " (os error " ++ toString number ++ ")")

def cause : IO.Error → FileError
  | .noFileOrDirectory _ code details | .alreadyExists _ code details
  | .inappropriateType _ code details | .invalidArgument _ code details
  | .permissionDenied _ code details | .resourceExhausted _ code details
  | .noSuchThing _ code details | .interrupted _ code details | .otherError code details
  | .resourceBusy code details | .resourceVanished code details
  | .unsupportedOperation code details | .hardwareFault code details
  | .unsatisfiedConstraints code details | .illegalOperation code details
  | .protocolError code details | .timeExpired code details => numbered code details
  | .unexpectedEof => .other "unexpected end of file"
  | .userError details => .other details

def attempt {α : Type} (operation : IO α) : IO (Except FileError α) := do
  match ← operation.toBaseIO with
  | .ok value => return .ok value
  | .error error => return .error (cause error)

/-- The only reason for which the working directory has no path is that it has been removed. -/
def currentDirectory : IO (Except FileError Path) := do
  match ← IO.currentDir.toBaseIO with
  | .ok directory => return .ok (Path.ofString directory.toString)
  | .error _ => return .error .notFound

def absolute (path : Path) : IO (Except FileError Path) := do
  if path.isAbsolute then return .ok path
  else return (← currentDirectory).map (·.join path)

/-- A file of a name that was free. Other programs take names too, so one that is taken is no
failure as long as there are attempts left. -/
def createFile (directory : Path) : Nat → IO (Except FileError (Path × IO.FS.Handle))
  | 0 => return .error (.other "too many temporary files exist")
  | attempts + 1 => do
    let path := directory.join ⟨[".tmp" ++ toString (← IO.rand 100000 999999)]⟩
    match ← attempt (IO.FS.Handle.mk path.text .writeNew) with
    | .ok handle => return .ok (path, handle)
    | .error .alreadyExists => createFile directory attempts
    | .error cause => return .error cause

def stage (directory : Path) : IO (Except FileError (Path × IO.FS.Handle)) := do
  match ← absolute directory with
  | .error cause => return .error cause
  | .ok directory => createFile directory 65536

/-- A generated file is for its owner to write and for everyone to read. -/
def permissions : IO.FileRight :=
  ⟨⟨true, true, false⟩, ⟨true, false, false⟩, ⟨true, false, false⟩⟩

def step (failure : FileError → ReplaceError) (operation : IO Unit) :
    ExceptT ReplaceError IO Unit :=
  ExceptT.mk do return (← attempt operation).mapError failure

def fill (handle : IO.FS.Handle) (contents : ByteArray) : IO Unit := do
  handle.write contents
  handle.flush

/-- A fresh file beside the target that is put in its place, or is gone again after any failure. -/
def replace (directory target : Path) (contents : ByteArray) : IO (Except ReplaceError Unit) := do
  match ← stage directory with
  | .error cause => return .error (.staging cause)
  | .ok (staged, handle) =>
    let steps : ExceptT ReplaceError IO Unit := do
      step .writing (fill handle contents)
      step .permitting (IO.setAccessRights staged.text permissions)
      step .placing (IO.FS.rename staged.text target.text)
    let result ← steps.run
    unless result matches .ok () do
      let _ ← attempt (IO.FS.removeFile staged.text)
    return result

def prune (directory : Path) : IO (Except PruneError Bool) := do
  match ← attempt (System.mkFilePath [directory.text]).readDir with
  | .error cause => return .error (.listing cause)
  | .ok entries =>
    if entries.isEmpty then
      return ((← attempt (IO.FS.removeDir directory.text)).mapError .removing).map fun _ ↦ true
    else return .ok false

instance : Files IO where
  readFile path := attempt (IO.FS.readBinFile path.text)
  makeDirectory path := attempt (IO.FS.createDir path.text)
  replaceFile := replace
  removeFile path := attempt (IO.FS.removeFile path.text)
  pruneDirectory := prune
  workingDirectory := currentDirectory

partial def readAll (stream : IO.FS.Stream) (taken : ByteArray) : IO ByteArray := do
  let more ← stream.read 65536
  if more.isEmpty then return taken else readAll stream (taken ++ more)

end DeclaredSource.Program

open DeclaredSource in
def main (arguments : List String) : IO UInt32 := do
  let input : IO ByteArray := do Program.readAll (← IO.getStdin) ByteArray.empty
  let environment ← IO.getEnv Storage.Settings.environmentName
  let ending ← CommandLine.run input environment arguments
  (← IO.getStdout).putStr ending.output
  (← IO.getStderr).putStr ending.errors
  return ending.exitCode.toUInt32
