import DeclaredSource.CommandLine.Invocation
import DeclaredSource.Json.Quoted
import DeclaredSource.Json.Reading
import DeclaredSource.Resource
import DeclaredSource.Storage.Settings

/-!
# Commands

Each command loads what it needs, does its work through the resource, and reports: an exit code,
and the texts for the two output streams. A declaration is loaded before the base directory is
chosen, so its faults come first. Only planning with a detailed exit code, with something to do,
ends well with another code than zero.
-/

namespace DeclaredSource.CommandLine

open Storage

inductive Failure where
  | readingInput (cause : FileError)
  | readingDeclaration (path : Path) (cause : FileError)
  | parsingDeclaration (path : Path) (cause : Json.ReadError)
  | resource (error : ResourceError)
  deriving DecidableEq, Repr

/-- The message of a failure. For a text that is not JSON it stops at the path: where and how the
text goes wrong is the JSON reader's to say, and a `Json.ReadError` keeps only whether the text
ended too early. -/
def Failure.message : Failure → String
  | .readingInput cause => "Error reading declaration from stdin: " ++ cause.message
  | .readingDeclaration path cause => "Error reading " ++ path.text ++ ": " ++ cause.message
  | .parsingDeclaration path _ => "Error parsing declaration " ++ path.text
  | .resource error => error.diagnostic.report

structure Report where
  exitCode : Nat
  output : String
  errors : String
  deriving DecidableEq, Repr

def successCode : Nat := 0

def failureCode : Nat := 1

def pendingCode : Nat := 2

variable {m : Type → Type} [Monad m] [Files m]

def isStandardInput (path : Path) : Bool :=
  path.components = [.name "-"]

def loadBytes (input : m ByteArray) (path : Path) : m (Except FileError ByteArray) := do
  if isStandardInput path then return .ok (← input) else Files.readFile path

def loadFailure (path : Path) (cause : FileError) : Failure :=
  if isStandardInput path then .readingInput cause else .readingDeclaration path cause

def parseDeclaration (path : Path) (contents : ByteArray) : Except Failure Json :=
  match String.fromUTF8? contents with
  | none => .error (loadFailure path .notText)
  | some text => (Json.read text).mapError (.parsingDeclaration path)

def loadDeclaration (input : m ByteArray) (operand : String) : ExceptT Failure m Json :=
  let path := Path.ofString operand
  ExceptT.mk do
    match ← loadBytes input path with
    | .error cause => return .error (loadFailure path cause)
    | .ok contents => return parseDeclaration path contents

def managed {α : Type} (operation : ExceptT ResourceError m α) : ExceptT Failure m α :=
  operation.adapt .resource

def mode (invocation : Invocation) : Declaration.Mode :=
  if invocation.strict then .strict else .lenient

def store (environment : Option String) (invocation : Invocation) : ExceptT Failure m Store := do
  return ⟨← managed (Resource.stored
    (Settings.baseDirectory invocation.baseDirectory environment))⟩

def resource (environment : Option String) (invocation : Invocation) :
    ExceptT Failure m Resource := do
  return ⟨← store environment invocation, mode invocation⟩

def printed (output : String) : Report :=
  ⟨successCode, output, ""⟩

def render (input : m ByteArray) (invocation : Invocation) : ExceptT Failure m Report := do
  let declaration ← loadDeclaration input invocation.operand
  match Generation.generate (mode invocation) declaration with
  | .ok text => return printed text
  | .error error => throw (.resource (.generation error))

def planText (filename : String) : Outcome → String
  | .create contents => "+ create " ++ filename ++ "\n" ++ Text.listing contents
  | .update diff => "~ update " ++ filename ++ "\n" ++ diff
  | .noChange => "No changes. " ++ filename ++ " is up to date.\n"

def plan (input : m ByteArray) (environment : Option String) (invocation : Invocation) :
    ExceptT Failure m Report := do
  let declaration ← loadDeclaration input invocation.operand
  let resource ← resource environment invocation
  let outcome ← managed (resource.plan invocation.filename declaration)
  let code := if invocation.detailedExitCode && outcome ≠ .noChange then pendingCode
    else successCode
  return ⟨code, planText invocation.filename outcome, ""⟩

def applyText (path : Path) (filename : String) : Outcome → String
  | .create _ => "Created: " ++ path.text ++ "\n"
  | .update diff => diff ++ "Updated: " ++ path.text ++ "\n"
  | .noChange => "✓ " ++ filename ++ " is up to date\n"

def apply (input : m ByteArray) (environment : Option String) (invocation : Invocation) :
    ExceptT Failure m Report := do
  let declaration ← loadDeclaration input invocation.operand
  let resource ← resource environment invocation
  let (state, outcome) ← managed (resource.apply invocation.filename declaration)
  return printed (applyText (resource.store.resolve state.filename) invocation.filename outcome)

def stateJson (state : FileState) : String :=
  "\x7b\n  \"filename\": " ++ Json.quoted state.filename ++ ",\n  \"contents\": "
    ++ Json.quoted state.contents ++ "\n\x7d\n"

def read (environment : Option String) (invocation : Invocation) : ExceptT Failure m Report := do
  let store ← store environment invocation
  let state ← managed (Resource.view store invocation.operand)
  return printed (if invocation.json then stateJson state else state.contents)

/-- The file is read first, so what cannot be read is not removed. -/
def destroy (environment : Option String) (invocation : Invocation) :
    ExceptT Failure m Report := do
  let resource ← resource environment invocation
  let state ← managed (Resource.view resource.store invocation.operand)
  managed (resource.delete state)
  return printed ("Destroyed: " ++ invocation.operand ++ "\n")

def execute (input : m ByteArray) (environment : Option String) (invocation : Invocation) :
    ExceptT Failure m Report :=
  match invocation.command with
  | .render => render input invocation
  | .plan => plan input environment invocation
  | .apply => apply input environment invocation
  | .read => read environment invocation
  | .destroy => destroy environment invocation

def perform (input : m ByteArray) (environment : Option String) (invocation : Invocation) :
    m Report := do
  match ← (execute input environment invocation).run with
  | .ok report => return report
  | .error failure => return ⟨failureCode, "", failure.message⟩

def versionText : String := "caiac 0.1.0-alpha.1\n"

def helpText : String :=
  "Usage: caiac [--base-dir DIR] [--strict] COMMAND\n\n"
    ++ "  render DECL                  print the generated source\n"
    ++ "  plan DECL --filename FILE    show what apply would change [--detailed-exitcode]\n"
    ++ "  apply DECL --filename FILE   create or update the generated file\n"
    ++ "  read FILE                    print a file as it exists on disk [--json]\n"
    ++ "  destroy FILE                 delete a file and the directories it leaves empty\n"

/-- What a whole run comes to: a refused command line, or a command's report. -/
inductive Ending where
  | refused (usage : Usage)
  | finished (report : Report)
  deriving DecidableEq, Repr

namespace Ending

def exitCode : Ending → Nat
  | .refused usage => usage.exitCode
  | .finished report => report.exitCode

def output : Ending → String
  | .refused .displayHelp => helpText
  | .refused .displayVersion => versionText
  | .refused _ => ""
  | .finished report => report.output

/-- A message of one line ends with its line. -/
def errors : Ending → String
  | .refused .displayHelp | .refused .displayVersion => ""
  | .refused usage => "error: " ++ usage.message ++ "\n\n" ++ helpText
  | .finished report => if report.errors = "" then "" else report.errors ++ "\n"

end Ending

def run (input : m ByteArray) (environment : Option String) (arguments : List String) :
    m Ending :=
  match invocation environment arguments with
  | .error usage => return .refused usage
  | .ok invocation => do return .finished (← perform input environment invocation)

end DeclaredSource.CommandLine
