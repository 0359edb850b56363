import DeclaredSource.Declaration.Error
import DeclaredSource.Vocabulary

/-!
# Blocks of a declaration

A block is an object of a declaration together with its place. Its attributes are taken out by
name, each as the shape it has to have; an attribute that is null counts as absent, and where text
is asked for a number or a boolean counts as its text.
-/

namespace DeclaredSource.Declaration

structure Block where
  fields : List (String × Json)
  place : Place

namespace Block

def ofJson (value : Json) (place : Place) : Except Error Block :=
  match value with
  | .object fields => .ok ⟨fields, place⟩
  | other => .error (.typeMismatch place .object other.shape)

def get? (block : Block) (attr : String) : Option Json :=
  (block.fields.lookup attr).filter (!·.isNull)

def has (block : Block) (attr : String) : Bool :=
  (block.get? attr).isSome

def textOf (value : Json) (place : Place) : Except Error String :=
  match value.scalarText? with
  | some text => .ok text
  | none => .error (.typeMismatch place .string value.shape)

def requiredText (block : Block) (attr : String) : Except Error String :=
  match block.get? attr with
  | some value => textOf value (block.place.member attr)
  | none => .error (.missingAttribute block.place attr)

def optionalText (block : Block) (attr : String) : Except Error (Option String) :=
  match block.get? attr with
  | some value => some <$> textOf value (block.place.member attr)
  | none => .ok none

def optionalBlock (block : Block) (attr : String) : Except Error (Option Block) :=
  match block.get? attr with
  | some value => some <$> ofJson value (block.place.member attr)
  | none => .ok none

def requiredBlock (block : Block) (attr : String) : Except Error Block :=
  match block.get? attr with
  | some value => ofJson value (block.place.member attr)
  | none => .error (.missingAttribute block.place attr)

/-- All of the items are known to be objects before any of them is used. -/
def blocks (block : Block) (attr : String) : Except Error (List Block) :=
  match block.get? attr with
  | none => .ok []
  | some (.array items) =>
    items.zipIdx.mapM fun (item, index) ↦ ofJson item ((block.place.member attr).item index)
  | some other => .error (.typeMismatch (block.place.member attr) .array other.shape)

/-- The kind that a block gives itself. -/
def kind (κ : Type) [Vocabulary κ] (block : Block) : Except Error κ := do
  let text ← block.requiredText "kind"
  match Vocabulary.read? text with
  | some kind => .ok kind
  | none =>
    .error (.unsupportedKind block.place (Vocabulary.construct κ) text (Vocabulary.spellings κ))

end Block

end DeclaredSource.Declaration
