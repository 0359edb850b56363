import DeclaredSource.Text.Pieces

/-!
# Line differences by position

Two texts are compared line by line at equal positions: a line that differs is listed as removed,
then added, under its number counted from one. Texts that differ in no line differ in how they
end lines, and a single notice says so. A listing shows every line of one text as added.
-/

namespace DeclaredSource.Text

inductive LineChange where
  | removed (number : Nat) (line : String)
  | added (number : Nat) (line : String)
  deriving DecidableEq, Repr

/-- Right-aligned to four places, wider when needed. -/
def lineNumber (number : Nat) : String :=
  String.ofList ((toString number).toList.leftpad 4 ' ')

def LineChange.text : LineChange → String
  | .removed number line => "-" ++ lineNumber number ++ " | " ++ line ++ "\n"
  | .added number line => "+" ++ lineNumber number ++ " | " ++ line ++ "\n"

/-- What one position contributes; a missing line differs from every line. -/
def changesAt (number : Nat) (old new : Option String) : List LineChange :=
  if old = new then []
  else old.toList.map (.removed number) ++ new.toList.map (.added number)

def lineChanges (old new : List String) : List LineChange :=
  ((old.zipWithAll Prod.mk new).zipIdx 1).flatMap fun (sides, number) ↦
    changesAt number sides.1 sides.2

def changesText (changes : List LineChange) : String :=
  String.join (changes.map LineChange.text)

def lineEndNotice : String := "~      | trailing newline differs\n"

/-- Nothing for equal texts; for different texts never the empty text. -/
def lineDiff (current desired : String) : Option String :=
  if current = desired then none
  else
    match lineChanges (lines current) (lines desired) with
    | [] => some lineEndNotice
    | changes => some (changesText changes)

/-- Every line as an added one. -/
def listing (contents : String) : String :=
  changesText (((lines contents).zipIdx 1).map fun (line, number) ↦ .added number line)

end DeclaredSource.Text
