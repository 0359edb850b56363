/-!
# Places in a declaration

A place leads from the root of a declaration to one of its values, through attributes of
blocks and positions in lists. Messages show it as attributes joined by points, with positions in
brackets; the root has a name of its own.
-/

namespace DeclaredSource.Declaration

inductive Segment where
  | member (name : String)
  | item (index : Nat)
  deriving DecidableEq, Repr

structure Place where
  segments : List Segment
  deriving DecidableEq, Repr

namespace Place

def root : Place :=
  ⟨[]⟩

def member (place : Place) (name : String) : Place :=
  ⟨place.segments ++ [.member name]⟩

def item (place : Place) (index : Nat) : Place :=
  ⟨place.segments ++ [.item index]⟩

/-- A segment after the first. -/
def tailText : Segment → String
  | .member name => "." ++ name
  | .item index => "[" ++ toString index ++ "]"

def headText : Segment → String
  | .member name => name
  | .item index => "[" ++ toString index ++ "]"

def text (place : Place) : String :=
  match place.segments with
  | [] => "the source file"
  | first :: rest => headText first ++ String.join (rest.map tailText)

end Place

end DeclaredSource.Declaration
