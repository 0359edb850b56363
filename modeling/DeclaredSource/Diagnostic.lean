/-!
# Diagnostics

What a failure tells its reader: a stable code, a message, and help where there is any. A report
lays a diagnostic out line by line, with the cause when the failure has one of its own.
-/

namespace DeclaredSource

structure Diagnostic where
  code : String
  message : String
  cause : Option String
  help : Option String
  deriving DecidableEq, Repr

namespace Diagnostic

def optionalLine (label : String) : Option String → String
  | none => ""
  | some text => label ++ text ++ "\n"

def report (diagnostic : Diagnostic) : String :=
  "code: " ++ diagnostic.code ++ "\n" ++ "error: " ++ diagnostic.message ++ "\n"
    ++ optionalLine "cause: " diagnostic.cause ++ optionalLine "help: " diagnostic.help

end Diagnostic

end DeclaredSource
