import DeclaredSource.Storage.Path

/-!
# Invocations

A command line is read from left to right on two levels: the arguments before the command's name,
and those after it. Both levels know the global options, and a value given after the command wins
over one given before it, which wins over the environment. The value of an option or operand is
only looked at once the next known argument or the end is reached, so an argument that is not known
is reported before such a value is; the faults of the command's own level come before those of the
level above it.
-/

namespace DeclaredSource.CommandLine

/-- Why a command line is not carried out. -/
inductive Usage where
  | displayHelp
  | displayVersion
  | helpOnMissing
  | missingSubcommand
  | invalidSubcommand
  | unknownArgument
  | missingRequired
  | invalidValue
  | argumentConflict
  | tooManyValues
  deriving DecidableEq, Repr

/-- Asking for help or for the version is no fault. -/
def Usage.exitCode : Usage → Nat
  | .displayHelp | .displayVersion => 0
  | _ => 2

def Usage.message : Usage → String
  | .displayHelp => "help was asked for"
  | .displayVersion => "the version was asked for"
  | .helpOnMissing | .missingSubcommand => "a command is required"
  | .invalidSubcommand => "there is no such command"
  | .unknownArgument => "an argument is not known"
  | .missingRequired => "a required argument is missing"
  | .invalidValue => "a value is missing or empty"
  | .argumentConflict => "an argument is given twice"
  | .tooManyValues => "a value is given to a flag"

inductive CommandName where
  | render | plan | apply | read | destroy
  deriving DecidableEq, Repr

namespace CommandName

def all : List CommandName := [.render, .plan, .apply, .read, .destroy]

def spelling : CommandName → String
  | .render => "render"
  | .plan => "plan"
  | .apply => "apply"
  | .read => "read"
  | .destroy => "destroy"

def ofSpelling? (text : String) : Option CommandName :=
  all.find? (·.spelling = text)

end CommandName

/-- What takes a value. -/
inductive Slot where
  | baseDirectory | filename | operand
  deriving DecidableEq, Repr

inductive Flag where
  | strict | detailedExitCode | json | help | version
  deriving DecidableEq, Repr

/-- A value that is expected or has been seen, but has not been looked at. -/
inductive Pending where
  | nothing
  | awaiting (slot : Slot)
  | holding (slot : Slot) (value : String)
  deriving DecidableEq, Repr

/-- What one level has been given so far. -/
structure Given where
  baseDirectory : Option String
  filename : Option String
  operand : Option String
  strict : Bool
  detailedExitCode : Bool
  json : Bool
  deriving DecidableEq, Repr

namespace Given

def nothing : Given :=
  ⟨none, none, none, false, false, false⟩

def value? (given : Given) : Slot → Option String
  | .baseDirectory => given.baseDirectory
  | .filename => given.filename
  | .operand => given.operand

def set (given : Given) (slot : Slot) (value : String) : Given :=
  match slot with
  | .baseDirectory => { given with baseDirectory := some value }
  | .filename => { given with filename := some value }
  | .operand => { given with operand := some value }

end Given

/-- The arguments that one level knows. -/
structure Level where
  /-- Whether its operand, if it has one, is a path, which may not be empty. -/
  operandIsPath : Option Bool
  options : List (String × Slot)
  flags : List (String × Flag)
  /-- Letters behind a single dash. -/
  letters : List (Char × Flag)

namespace Level

def top : Level where
  operandIsPath := none
  options := [("base-dir", .baseDirectory)]
  flags := [("strict", .strict), ("help", .help), ("version", .version)]
  letters := [('h', .help), ('V', .version)]

def command (operandIsPath : Bool) (options : List (String × Slot))
    (flags : List (String × Flag)) : Level where
  operandIsPath := some operandIsPath
  options := ("base-dir", .baseDirectory) :: options
  flags := ("strict", .strict) :: ("help", .help) :: flags
  letters := [('h', .help)]

def ofCommand : CommandName → Level
  | .render => command true [] []
  | .plan => command true [("filename", .filename)] [("detailed-exitcode", .detailedExitCode)]
  | .apply => command true [("filename", .filename)] []
  | .read => command false [] [("json", .json)]
  | .destroy => command false [] []

def requires : CommandName → List Slot
  | .plan | .apply => [.operand, .filename]
  | .render | .read | .destroy => [.operand]

def mayBeEmpty (level : Level) : Slot → Bool
  | .baseDirectory => false
  | .filename => true
  | .operand => level.operandIsPath = some false

end Level

/-- The state of reading one level. -/
structure Progress where
  given : Given
  pending : Pending
  deriving DecidableEq, Repr

namespace Progress

def initial : Progress :=
  ⟨.nothing, .nothing⟩

/-- Records a value. Each slot takes one. -/
def record (level : Level) (given : Given) (slot : Slot) (value : String) : Except Usage Given :=
  if (given.value? slot).isSome then .error .argumentConflict
  else if value = "" && !level.mayBeEmpty slot then .error .invalidValue
  else .ok (given.set slot value)

/-- Looks at the pending value. -/
def settle (level : Level) (progress : Progress) : Except Usage Given :=
  match progress.pending with
  | .nothing => .ok progress.given
  | .awaiting _ => .error .invalidValue
  | .holding slot value => record level progress.given slot value

/-- A flag is given at most once. -/
def raise (given : Given) : Flag → Except Usage Given
  | .strict =>
    if given.strict then .error .argumentConflict else .ok { given with strict := true }
  | .detailedExitCode =>
    if given.detailedExitCode then .error .argumentConflict
    else .ok { given with detailedExitCode := true }
  | .json => if given.json then .error .argumentConflict else .ok { given with json := true }
  | .help => .error .displayHelp
  | .version => .error .displayVersion

def flag (level : Level) (progress : Progress) (flag : Flag) : Except Usage Progress := do
  return ⟨← raise (← settle level progress) flag, .nothing⟩

/-- The letters of one argument, in order. -/
def letters (level : Level) (progress : Progress) : List Char → Except Usage Progress
  | [] => .ok progress
  | letter :: rest =>
    match level.letters.lookup letter with
    | none => .error .unknownArgument
    | some known => do letters level (← flag level progress known) rest

/-- An argument behind two dashes: its name, and the text after its first equals sign. -/
def long (level : Level) (progress : Progress) (name : String) (attached : Option String) :
    Except Usage Progress :=
  match level.options.lookup name, level.flags.lookup name, attached with
  | some slot, _, none => do return ⟨← settle level progress, .awaiting slot⟩
  | some slot, _, some value => do
    return ⟨← record level (← settle level progress) slot value, .nothing⟩
  | none, some known, none => flag level progress known
  | none, some _, some _ => .error .tooManyValues
  | none, none, _ => .error .unknownArgument

/-- An operand. A level has room for at most one. -/
def operand (level : Level) (progress : Progress) (value : String) : Except Usage Progress :=
  let isNext := match progress.pending with
    | .holding .operand _ => false
    | _ => progress.given.operand.isNone
  if level.operandIsPath.isSome && isNext then do
    return ⟨← settle level progress, .holding .operand value⟩
  else .error .unknownArgument

end Progress

/-- How an argument looks before any is known. -/
inductive Shape where
  | dashes
  | long (name : String) (attached : Option String)
  | letters (text : List Char)
  | plain
  deriving DecidableEq, Repr

def shape (argument : String) : Shape :=
  match argument.toList with
  | ['-', '-'] => .dashes
  | '-' :: '-' :: rest =>
    match rest.span (· ≠ '=') with
    | (name, []) => .long (String.ofList name) none
    | (name, _ :: value) => .long (String.ofList name) (some (String.ofList value))
  | '-' :: letter :: rest => .letters (letter :: rest)
  | _ => .plain

/-- Reads one argument that is neither two dashes nor behind them. -/
def step (level : Level) (progress : Progress) (argument : String) : Except Usage Progress :=
  match shape argument, progress.pending with
  | .long name attached, _ => progress.long level name attached
  | .letters text, _ => progress.letters level text
  | _, .awaiting slot => .ok ⟨progress.given, .holding slot argument⟩
  | _, _ => progress.operand level argument

/-- Everything behind two dashes is an operand. -/
def afterDashes (level : Level) (progress : Progress) : List String → Except Usage Progress
  | [] => .ok progress
  | argument :: rest => do afterDashes level (← progress.operand level argument) rest

/-- The arguments behind a command's name. -/
def commandLevel (level : Level) (progress : Progress) : List String → Except Usage Progress
  | [] => .ok progress
  | argument :: rest =>
    if shape argument = .dashes then afterDashes level progress rest
    else do commandLevel level (← step level progress argument) rest

/-- Help on a command, on help itself, or on everything. -/
def help : List String → Usage
  | [] => .displayHelp
  | ["help"] => .displayHelp
  | [name] => if (CommandName.ofSpelling? name).isSome then .displayHelp else .invalidSubcommand
  | _ => .invalidSubcommand

/-- What the level above a command ends with: the command and its arguments, if there is one. -/
abbrev Found := Progress × Option (CommandName × List String)

/-- Before a command's name no operand is known, and behind two dashes no command is. -/
def topLevel (progress : Progress) : List String → Except Usage Found
  | [] => .ok (progress, none)
  | argument :: rest =>
    match progress.pending, CommandName.ofSpelling? argument, shape argument with
    | .awaiting slot, _, .plain => topLevel ⟨progress.given, .holding slot argument⟩ rest
    | _, some command, _ => .ok (progress, some (command, rest))
    | _, none, .plain => .error (if argument = "help" then help rest else .invalidSubcommand)
    | _, none, .dashes =>
      match rest with
      | [] => .ok (progress, none)
      | next :: _ =>
        .error (if next = "help" || (CommandName.ofSpelling? next).isSome then .unknownArgument
          else .invalidSubcommand)
    | _, none, _ => do topLevel (← step .top progress argument) rest

/-- A base directory that a level was not given comes from the environment, where an empty one is
a fault. -/
def fromEnvironment (given : Given) (environment : Option String) : Except Usage Unit :=
  if given.baseDirectory.isNone && environment = some "" then .error .invalidValue else .ok ()

structure Invocation where
  command : CommandName
  operand : String
  filename : String
  detailedExitCode : Bool
  json : Bool
  strict : Bool
  baseDirectory : Option String
  deriving DecidableEq, Repr

def commandGiven (command : CommandName) (environment : Option String) (arguments : List String) :
    Except Usage Given := do
  let level := Level.ofCommand command
  let given ← Progress.settle level (← commandLevel level .initial arguments)
  fromEnvironment given environment
  if (Level.requires command).all fun slot ↦ (given.value? slot).isSome then return given
  else .error .missingRequired

def invocation (environment : Option String) (arguments : List String) :
    Except Usage Invocation := do
  let (progress, found) ← topLevel .initial arguments
  match found with
  | none =>
    let given ← Progress.settle .top progress
    fromEnvironment given environment
    if given = .nothing ∧ environment = none then .error .helpOnMissing
    else .error .missingSubcommand
  | some (command, rest) =>
    let inner ← commandGiven command environment rest
    let outer ← Progress.settle .top progress
    fromEnvironment outer environment
    return {
      command := command
      operand := inner.operand.getD ""
      filename := inner.filename.getD ""
      detailedExitCode := inner.detailedExitCode
      json := inner.json
      strict := outer.strict || inner.strict
      baseDirectory := (inner.baseDirectory.or outer.baseDirectory).or environment }

end DeclaredSource.CommandLine
