/-!
# The indenting writer

A writer holds the text written so far, the depth of indentation, and whether a line is still
empty. Indentation is put down by the first text on a line, never by an empty text, so a line
without text stays empty whatever the depth.
-/

namespace DeclaredSource.Source

structure Writer where
  text : String
  depth : Nat
  atLineStart : Bool
  deriving DecidableEq, Repr

namespace Writer

def empty : Writer :=
  ⟨"", 0, true⟩

def tabs (depth : Nat) : String :=
  String.ofList (List.replicate depth '\t')

def indent (writer : Writer) : Writer :=
  { writer with depth := writer.depth + 1 }

/-- Depth never falls below zero. -/
def dedent (writer : Writer) : Writer :=
  { writer with depth := writer.depth - 1 }

def write (writer : Writer) (text : String) : Writer :=
  if text = "" then writer
  else
    { writer with
      text := writer.text ++ (if writer.atLineStart then tabs writer.depth else "") ++ text
      atLineStart := false }

def newline (writer : Writer) : Writer :=
  { writer with text := writer.text ++ "\n", atLineStart := true }

def writeLine (writer : Writer) (text : String) : Writer :=
  (writer.write text).newline

end Writer

end DeclaredSource.Source
