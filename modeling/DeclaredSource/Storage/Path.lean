import DeclaredSource.Text.Pieces

/-!
# Paths

A path is the list of pieces between its slashes, so its spelling is never lost: an empty first
piece with more after it makes a path absolute, an empty last piece is a trailing slash. What a
path names is its list of components, in which empty pieces and points after the first are passed
over. Joining and taking parents keep the spelling; normalising cancels every component that climbs
against the name before it and leaves one spelling for each result.
-/

namespace DeclaredSource.Storage

structure Path where
  pieces : List String
  deriving DecidableEq, Repr

namespace Path

def ofString (text : String) : Path :=
  ⟨Text.pieces '/' text⟩

def text (path : Path) : String :=
  "/".intercalate path.pieces

def empty : Path := ⟨[""]⟩

def rootPath : Path := ⟨["", ""]⟩

def isAbsolute (path : Path) : Bool :=
  path.pieces.head? = some "" && path.pieces.length ≠ 1

/-- True of the empty path and of every path with a trailing slash. -/
def endsOpen (path : Path) : Bool :=
  path.pieces.getLast? = some ""

/-- An absolute second path replaces the first. -/
def join (base path : Path) : Path :=
  if path.isAbsolute then path
  else if base.endsOpen then ⟨base.pieces.dropLast ++ path.pieces⟩
  else ⟨base.pieces ++ path.pieces⟩

/-- What stands before the pieces that name something: the root, a leading point, or nothing. -/
inductive Anchor where
  | root | here | none
  deriving DecidableEq, Repr

def anchor (path : Path) : Anchor :=
  if path.isAbsolute then .root
  else if path.pieces.head? = some "." then .here
  else .none

def body (path : Path) : List String :=
  match path.anchor with
  | .none => path.pieces
  | _ => path.pieces.tail

def assemble : Anchor → List String → Path
  | .root, [] => rootPath
  | .root, body => ⟨"" :: body⟩
  | .here, body => ⟨"." :: body⟩
  | .none, [] => empty
  | .none, body => ⟨body⟩

/-- Pieces that name nothing of their own. -/
def isIdle (piece : String) : Bool :=
  piece = "" || piece = "."

def dropIdleEnd (body : List String) : List String :=
  (body.reverse.dropWhile isIdle).reverse

/-- The path without its last component and the slashes before it. -/
def parent? (path : Path) : Option Path :=
  match dropIdleEnd path.body with
  | [] => if path.anchor = .here then some empty else none
  | body => some (assemble path.anchor (dropIdleEnd body.dropLast))

/-- The path and its parents, inwards to outwards; every parent has one component less. -/
def ancestorsWithin (path : Path) : Nat → List Path
  | 0 => [path]
  | count + 1 =>
    path :: match path.parent? with
      | some parent => parent.ancestorsWithin count
      | none => []

def ancestors (path : Path) : List Path :=
  path.ancestorsWithin path.pieces.length

inductive Component where
  | root
  | here
  | up
  | name (text : String)
  deriving DecidableEq, Repr

def component? (piece : String) : Option Component :=
  if isIdle piece then none
  else if piece = ".." then some .up
  else some (.name piece)

def Anchor.components : Anchor → List Component
  | .root => [.root]
  | .here => [.here]
  | .none => []

def components (path : Path) : List Component :=
  path.anchor.components ++ path.body.filterMap component?

def Component.text : Component → String
  | .root => ""
  | .here => "."
  | .up => ".."
  | .name text => text

def Component.name? : Component → Option String
  | .name text => some text
  | _ => none

def ofComponents : List Component → Path
  | .root :: rest => assemble .root (rest.map Component.text)
  | components => assemble .none (components.map Component.text)

/-- Puts a component on a stack whose top is first. Nothing is above the root. -/
def climb : List Component → Component → List Component
  | stack, .here => stack
  | .name _ :: rest, .up => rest
  | .root :: rest, .up => .root :: rest
  | stack, component => component :: stack

def normalize (path : Path) : Path :=
  ofComponents (path.components.foldl climb []).reverse

/-- The components after a leading part, if that part leads. -/
def stripComponents? : List Component → List Component → Option (List Component)
  | [], components => some components
  | _ :: _, [] => none
  | expected :: lead, component :: rest =>
    if expected = component then stripComponents? lead rest else none

/-- The names that a file system goes through, points and all. -/
def names (path : Path) : List String :=
  path.pieces.filter (· ≠ "")

end Path

end DeclaredSource.Storage
