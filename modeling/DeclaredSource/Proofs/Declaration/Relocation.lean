import DeclaredSource.Proofs.Declaration.Attributes

/-!
# Blocks in another place

A reader knows the place of its block, but all it does with it is to name nodes in errors. So a
block is read alike wherever it stands, the nodes of errors moving along with it, and what a reader
makes of the blocks inside a block is told by what it makes of each of them standing alone: of an
attribute that is a block, of one that may be left out, and of a list, all of whose items have to be
objects before the first of them is read.
-/

namespace DeclaredSource.Declaration

open FirstFailure

namespace Place

/-- The same place, counted from a root that stands at another place. -/
def below (place outer : Place) : Place :=
  ⟨outer.segments ++ place.segments⟩

theorem below_member (place outer : Place) (attr : String) :
    (place.member attr).below outer = (place.below outer).member attr := by
  simp [below, member]

theorem below_item (place outer : Place) (index : Nat) :
    (place.item index).below outer = (place.below outer).item index := by
  simp [below, item]

theorem root_below (outer : Place) : root.below outer = outer := by
  simp [below, root]

theorem below_below (place inner outer : Place) :
    (place.below inner).below outer = place.below (inner.below outer) := by
  simp [below]

end Place

namespace Error

/-- The same error, with its node counted from a root that stands at another place. -/
def below (error : Error) (outer : Place) : Error :=
  match error with
  | .missingAttribute node attr => .missingAttribute (node.below outer) attr
  | .typeMismatch node expected found => .typeMismatch (node.below outer) expected found
  | .unsupportedKind node construct kind expected =>
    .unsupportedKind (node.below outer) construct kind expected
  | .conflictingAttributes node first second =>
    .conflictingAttributes (node.below outer) first second
  | .unexpectedBlock node kind block => .unexpectedBlock (node.below outer) kind block

theorem below_below (error : Error) (inner outer : Place) :
    (error.below inner).below outer = error.below (inner.below outer) := by
  cases error <;> simp [below, Place.below_below]

end Error

namespace Block

def below (block : Block) (outer : Place) : Block :=
  ⟨block.fields, block.place.below outer⟩

theorem get?_below (block : Block) (outer : Place) (attr : String) :
    (block.below outer).get? attr = block.get? attr := rfl

theorem has_below (block : Block) (outer : Place) (attr : String) :
    (block.below outer).has attr = block.has attr := rfl

theorem member_below (block : Block) (outer : Place) (attr : String) :
    (block.below outer).place.member attr = (block.place.member attr).below outer :=
  (Place.below_member block.place outer attr).symm

theorem textOf_below (value : Json) (place outer : Place) :
    textOf value (place.below outer) = (textOf value place).mapError (·.below outer) := by
  rw [textOf, textOf]
  cases value.scalarText? <;> rfl

theorem requiredText_below (block : Block) (outer : Place) (attr : String) :
    (block.below outer).requiredText attr =
      (block.requiredText attr).mapError (·.below outer) := by
  rw [requiredText, requiredText, get?_below, member_below]
  cases block.get? attr with
  | none => rfl
  | some value => exact textOf_below value _ outer

theorem optionalText_below (block : Block) (outer : Place) (attr : String) :
    (block.below outer).optionalText attr =
      (block.optionalText attr).mapError (·.below outer) := by
  rw [optionalText, optionalText, get?_below, member_below]
  cases block.get? attr with
  | none => rfl
  | some value =>
    dsimp only
    rw [textOf_below, mapError_map]

theorem kind_below {κ : Type} [Vocabulary κ] (block : Block) (outer : Place) :
    (block.below outer).kind κ = (block.kind κ).mapError (·.below outer) := by
  rw [Block.kind, Block.kind, requiredText_below, mapError_bind]
  refine congrArg (_ >>= ·) (funext fun text ↦ ?_)
  cases (Vocabulary.read? text : Option κ) <;> rfl

theorem ofJson_below (value : Json) (place outer : Place) :
    ofJson value (place.below outer) =
      (·.below outer) <$> (ofJson value place).mapError (·.below outer) := by
  cases value <;> rfl

theorem requiredBlock_below (block : Block) (outer : Place) (attr : String) :
    (block.below outer).requiredBlock attr =
      (·.below outer) <$> (block.requiredBlock attr).mapError (·.below outer) := by
  rw [requiredBlock, requiredBlock, get?_below, member_below]
  cases block.get? attr with
  | none => rfl
  | some value => exact ofJson_below value _ outer

theorem optionalBlock_below (block : Block) (outer : Place) (attr : String) :
    (block.below outer).optionalBlock attr =
      Option.map (·.below outer) <$> (block.optionalBlock attr).mapError (·.below outer) := by
  rw [optionalBlock, optionalBlock, get?_below, member_below]
  cases block.get? attr with
  | none => rfl
  | some value =>
    dsimp only
    rw [ofJson_below, mapError_map, Functor.map_map, Functor.map_map]
    rfl

theorem blocks_below (block : Block) (outer : Place) (attr : String) :
    (block.below outer).blocks attr =
      List.map (·.below outer) <$> (block.blocks attr).mapError (·.below outer) := by
  rw [blocks, blocks, get?_below, member_below]
  cases block.get? attr with
  | none => rfl
  | some value =>
    cases value with
    | array items =>
      simp only [← Place.below_item, ofJson_below]
      rw [mapM_map, mapM_mapError]
    | _ => rfl

end Block

/-! ## Readers -/

/-- What the reader makes of a block does not depend on where the block stands. -/
def Movable {α : Type} (reader : Block → Except Error α) : Prop :=
  ∀ (block : Block) (outer : Place),
    reader (block.below outer) = (reader block).mapError (·.below outer)

open Block

theorem Movable.mapM {α : Type} {reader : Block → Except Error α} (h : Movable reader)
    (blocks : List Block) (outer : Place) :
    (blocks.map (·.below outer)).mapM reader = (blocks.mapM reader).mapError (·.below outer) := by
  rw [List.mapM_map, ← mapM_mapError]
  exact congrArg (blocks.mapM ·) (funext fun block ↦ h block outer)

theorem movable_readLiteral : Movable readLiteral := by
  intro block outer
  rw [readLiteral, readLiteral, kind_below, requiredText_below]
  simp only [mapError_bind]
  rfl

theorem movable_readSelector : Movable readSelector := by
  intro block outer
  rw [readSelector, readSelector, optionalText_below, requiredText_below]
  simp only [mapError_bind]
  rfl

theorem movable_readCall : Movable readCall := by
  intro block outer
  rw [readCall, readCall, requiredBlock_below, blocks_below]
  simp only [mapError_bind, bind_map_left, movable_readSelector _ outer, movable_readLiteral.mapM]
  rfl

theorem movable_readPayload (kind : ExpressionKind) : Movable (readPayload · kind) := by
  intro block outer
  cases kind with
  | call => exact movable_readCall block outer
  | selector =>
    dsimp only
    rw [readPayload, readPayload, movable_readSelector block outer, mapError_map]
  | identifier =>
    dsimp only
    rw [readPayload, readPayload, requiredText_below, mapError_map]
  | literal =>
    dsimp only
    rw [readPayload, readPayload, movable_readLiteral block outer, mapError_map]

theorem movable_refuseStray (mode : Mode) (kind : ExpressionKind) :
    Movable (refuseStray mode · kind) := by
  intro block outer
  have hstray : strayPayload? (block.below outer) kind = strayPayload? block kind := rfl
  cases mode with
  | lenient => rfl
  | strict =>
    simp only [refuseStray, hstray]
    cases strayPayload? block kind <;> rfl

theorem movable_readExpression (mode : Mode) : Movable (readExpression mode) := by
  intro block outer
  rw [readExpression, readExpression, kind_below]
  simp only [mapError_bind, movable_refuseStray mode _ _ outer, requiredBlock_below,
    bind_map_left, movable_readPayload _ _ outer]

theorem movable_readExpressionStatement (mode : Mode) :
    Movable (readExpressionStatement mode) := by
  intro block outer
  rw [readExpressionStatement, readExpressionStatement, has_below]
  split
  · rfl
  · rw [requiredBlock_below]
    simp only [mapError_bind, bind_map_left, movable_readExpression mode _ outer]
    rfl

theorem movable_readReturn (mode : Mode) : Movable (readReturn mode) := by
  intro block outer
  rw [readReturn, readReturn, has_below, has_below]
  split
  · rfl
  · rw [optionalBlock_below, blocks_below]
    simp only [mapError_bind, bind_map_left]
    refine congrArg (_ >>= ·) (funext fun value ↦ ?_)
    cases value with
    | some inner =>
      simp only [Option.map_some, movable_readExpression mode _ outer, mapError_bind]
      rfl
    | none =>
      simp only [Option.map_none, mapError_bind, (movable_readExpression mode).mapM]
      rfl

theorem movable_readStatement (mode : Mode) : Movable (readStatement mode) := by
  intro block outer
  rw [readStatement, readStatement, kind_below]
  simp only [mapError_bind]
  refine congrArg (_ >>= ·) (funext fun kind ↦ ?_)
  cases kind with
  | expression => exact movable_readExpressionStatement mode block outer
  | ret => exact movable_readReturn mode block outer

theorem movable_readField : Movable readField := by
  intro block outer
  rw [readField, readField, optionalText_below, optionalText_below]
  simp only [mapError_bind]
  rfl

theorem movable_readFields (attr : String) : Movable (readFields · attr) := by
  intro block outer
  dsimp only
  rw [readFields, readFields, blocks_below]
  simp only [mapError_bind, bind_map_left, movable_readField.mapM]

theorem readSignature_below (signature : Option Block) (outer : Place) :
    readSignature (signature.map (·.below outer)) =
      (readSignature signature).mapError (·.below outer) := by
  cases signature with
  | none => rfl
  | some block =>
    simp only [Option.map_some, readSignature, movable_readFields _ _ outer, mapError_bind]
    rfl

theorem readBody_below (mode : Mode) (body : Option Block) (outer : Place) :
    readBody mode (body.map (·.below outer)) =
      (readBody mode body).mapError (·.below outer) := by
  cases body with
  | none => rfl
  | some block =>
    simp only [Option.map_some, readBody, blocks_below, mapError_bind, bind_map_left,
      (movable_readStatement mode).mapM]

theorem movable_readFunction (mode : Mode) : Movable (readFunction mode) := by
  intro block outer
  rw [readFunction, readFunction, requiredText_below, optionalBlock_below, optionalBlock_below]
  simp only [mapError_bind, bind_map_left, readSignature_below, readBody_below]
  rfl

theorem movable_readImport : Movable readImport := by
  intro block outer
  rw [readImport, readImport, optionalText_below, requiredText_below]
  simp only [mapError_bind]
  rfl

/-! ## Values that stand alone -/

section Alone

variable {α : Type} {reader : Block → Except Error α} {block : Block} {attr : String}
  {value : Json} {items : List Json} {place : Place}

/-- What the reader makes of a value that stands by itself. -/
def readAlone (reader : Block → Except Error α) (value : Json) : Except Error α :=
  ofJson value .root >>= reader

theorem shape_of_readAlone {result : α} (h : readAlone reader value = .ok result) :
    value.shape = .object := by
  cases value with
  | object fields => rfl
  | _ => cases h

theorem exists_ofJson (value : Json) (place : Place) :
    (∃ block, ofJson value place = .ok block) ↔ value.shape = .object := by
  cases value <;> simp [ofJson, Json.shape]

theorem ofJson_misfit (h : value.shape ≠ .object) (place : Place) :
    ofJson value place = .error (.typeMismatch place .object value.shape) := by
  cases value with
  | object fields => exact absurd rfl h
  | _ => rfl

theorem Movable.ofJson_bind (h : Movable reader) (value : Json) (place : Place) :
    ofJson value place >>= reader = (readAlone reader value).mapError (·.below place) := by
  have hplace := ofJson_below value .root place
  rw [Place.root_below] at hplace
  rw [hplace, bind_map_left, readAlone, mapError_bind]
  exact congrArg (_ >>= ·) (funext fun block ↦ h block place)

theorem Movable.requiredBlock_bind (h : Movable reader)
    (hvalue : block.value.attribute? attr = some value) :
    block.requiredBlock attr >>= reader =
      (readAlone reader value).mapError (·.below (block.place.member attr)) := by
  rw [requiredBlock, get?_eq, hvalue]
  exact h.ofJson_bind value _

theorem Movable.optionalBlock_bind {reader : Option Block → Except Error α}
    (h : Movable fun block ↦ reader (some block))
    (hvalue : block.value.attribute? attr = some value) :
    block.optionalBlock attr >>= reader =
      (readAlone (fun block ↦ reader (some block)) value).mapError
        (·.below (block.place.member attr)) := by
  rw [optionalBlock, get?_eq, hvalue]
  dsimp only
  rw [bind_map_left]
  exact h.ofJson_bind value _

/-- The items of a list are looked at twice: whether they are objects, and what they say. -/
def readItems (reader : Block → Except Error α) (items : List Json) (place : Place) :
    Except Error (List α) :=
  (items.zipIdx.mapM fun item ↦ ofJson item.1 (place.item item.2)) >>= (·.mapM reader)

theorem blocks_bind (hitems : block.value.attribute? attr = some (.array items)) :
    block.blocks attr >>= (·.mapM reader) = readItems reader items (block.place.member attr) := by
  rw [blocks, get?_eq, hitems]
  rfl

theorem Movable.readItems_eq (h : Movable reader) (items : List Json) (place : Place) :
    readItems reader items place =
      (items.zipIdx.mapM fun item ↦ ofJson item.1 (place.item item.2)) >>= fun _ ↦
        items.zipIdx.mapM fun item ↦
          (readAlone reader item.1).mapError (·.below (place.item item.2)) := by
  rw [readItems, mapM_bind_mapM]
  simp only [h.ofJson_bind]

theorem exists_mapM_ofJson (h : ∀ item ∈ items, item.shape = .object) (place : Place) :
    ∃ blocks, (items.zipIdx.mapM fun item ↦ ofJson item.1 (place.item item.2)) = .ok blocks := by
  apply exists_mapM
  intro item hitem
  exact (exists_ofJson _ _).2 (h item.1 (List.fst_mem_of_mem_zipIdx hitem))

theorem Movable.readItems_eq_ok (h : Movable reader) {results : List α} :
    readItems reader items place = .ok results ↔
      List.Forall₂ (fun item result ↦ readAlone reader item = .ok result) items results := by
  rw [h.readItems_eq, bind_eq_ok]
  constructor
  · rintro ⟨_, -, hread⟩
    exact (forall₂_of_mapM_zipIdx hread).imp fun _ _ ⟨_, hitem⟩ ↦ mapError_eq_ok.1 hitem
  · intro hread
    have hread' : List.Forall₂ (fun item result ↦ ∀ index, (readAlone reader item).mapError
        (·.below (place.item index)) = .ok result) items results :=
      hread.imp fun _ _ hitem _ ↦ mapError_eq_ok.2 hitem
    have hshapes : ∀ item ∈ items, item.shape = .object := by
      intro item hitem
      obtain ⟨_, hresult⟩ := forall_mem_of_mapM (mapM_eq_ok.2 hread) item hitem
      exact shape_of_readAlone hresult
    obtain ⟨blocks, hblocks⟩ := exists_mapM_ofJson hshapes place
    exact ⟨blocks, hblocks, mapM_zipIdx_eq_ok hread'⟩

/-- The ways in which reading the items of a list fails. -/
inductive ItemFails (reader : Block → Except Error α) (items : List Json) (place : Place) :
    Error → Prop
  | misfit {before after : List Json} {item : Json} (split : items = before ++ item :: after)
    (objects : ∀ other ∈ before, other.shape = .object) (misfit : item.shape ≠ .object) :
    ItemFails reader items place (.typeMismatch (place.item before.length) .object item.shape)
  | inside {before after : List Json} {item : Json} {error : Error}
    (split : items = before ++ item :: after) (objects : ∀ other ∈ items, other.shape = .object)
    (earlier : ∀ other ∈ before, ∃ result, readAlone reader other = .ok result)
    (fails : readAlone reader item = .error error) :
    ItemFails reader items place (error.below (place.item before.length))

theorem Movable.readItems_eq_error (h : Movable reader) {error : Error} :
    readItems reader items place = .error error ↔ ItemFails reader items place error := by
  rw [h.readItems_eq, bind_eq_error]
  constructor
  · rintro (hshapes | ⟨_, hshapes, hread⟩)
    · obtain ⟨before, item, after, hsplit, hbefore, hitem⟩ := mapM_zipIdx_eq_error.1 hshapes
      obtain ⟨hmisfit, rfl⟩ := ofJson_eq_error hitem
      refine .misfit hsplit (forall_mem_zipIdx.1 fun other hother ↦ ?_) hmisfit
      exact (exists_ofJson _ _).1 (hbefore other hother)
    · obtain ⟨before, item, after, hsplit, hbefore, hitem⟩ := mapM_zipIdx_eq_error.1 hread
      obtain ⟨inner, hinner, rfl⟩ := mapError_eq_error.1 hitem
      refine .inside hsplit (forall_mem_zipIdx.1 fun other hother ↦ ?_)
        (forall_mem_zipIdx.1 fun other hother ↦ ?_) hinner
      · exact (exists_ofJson _ _).1 (forall_mem_of_mapM hshapes other hother)
      · obtain ⟨result, hresult⟩ := hbefore other hother
        exact ⟨result, mapError_eq_ok.1 hresult⟩
  · rintro (⟨hsplit, hobjects, hmisfit⟩ | ⟨hsplit, hobjects, hearlier, hfails⟩)
    · refine .inl (mapM_zipIdx_eq_error.2 ⟨_, _, _, hsplit, fun other hother ↦ ?_, ?_⟩)
      · exact (exists_ofJson _ _).2 (hobjects other.1 (List.fst_mem_of_mem_zipIdx hother))
      · exact ofJson_misfit hmisfit _
    · obtain ⟨blocks, hblocks⟩ := exists_mapM_ofJson hobjects place
      refine .inr ⟨blocks, hblocks, mapM_zipIdx_eq_error.2 ⟨_, _, _, hsplit, ?_, ?_⟩⟩
      · intro other hother
        obtain ⟨result, hresult⟩ := hearlier other.1 (List.fst_mem_of_mem_zipIdx hother)
        exact ⟨result, mapError_eq_ok.2 hresult⟩
      · exact mapError_eq_error.2 ⟨_, hfails, rfl⟩

end Alone

/-- What is read of the root of a declaration. -/
def readFile (mode : Mode) (block : Block) : Except Error Outline.File := do
  let package ← block.requiredText "packageName"
  let imports ← (← block.blocks "imports").mapM readImport
  let functions ← (← block.blocks "functions").mapM (readFunction mode)
  return ⟨package, imports, functions⟩

theorem read_eq (mode : Mode) (declaration : Json) :
    read mode declaration = readAlone (readFile mode) declaration := rfl

section Steps

variable (mode : Mode) (block : Block)

theorem readFile_eq : readFile mode block = (do
    let package ← block.requiredText "packageName"
    let imports ← block.blocks "imports" >>= (·.mapM readImport)
    let functions ← block.blocks "functions" >>= (·.mapM (readFunction mode))
    return ⟨package, imports, functions⟩) := by
  simp only [readFile, bind_assoc]

theorem readFunction_eq : readFunction mode block = (do
    let name ← block.requiredText "name"
    let fields ← block.optionalBlock "signature" >>= readSignature
    let body ← block.optionalBlock "body" >>= readBody mode
    return ⟨name, fields.1, fields.2, body⟩) := by
  simp only [readFunction, bind_assoc]

theorem readCall_eq : readCall block = (do
    let callee ← block.requiredBlock "func" >>= readSelector
    let arguments ← block.blocks "args" >>= (·.mapM readLiteral)
    return .call callee arguments) := by
  simp only [readCall, bind_assoc]

/-- An expression statement has no results, which strict reading makes sure of. -/
def refuseResults : Except Error Unit :=
  if mode = .strict && block.has "results" then
    .error (.unexpectedBlock block.place (Vocabulary.spelling StatementKind.expression) "results")
  else .ok ()

theorem readExpressionStatement_eq : readExpressionStatement mode block = (do
    refuseResults mode block
    .expression <$> (block.requiredBlock "expression" >>= readExpression mode)) := by
  rw [readExpressionStatement, refuseResults]
  split
  · rfl
  · simp only [ok_bind, map_eq_pure_bind, bind_assoc]

/-- Whether the value of a return is given by itself, which excludes a list. -/
def givesOne : Except Error Bool :=
  if block.has "expression" && block.has "results" then
    .error (.conflictingAttributes block.place "expression" "results")
  else .ok (block.has "expression")

theorem readReturn_eq : readReturn mode block = (do
    if ← givesOne block then
      (fun value ↦ .ret [value]) <$> (block.requiredBlock "expression" >>= readExpression mode)
    else .ret <$> (block.blocks "results" >>= (·.mapM (readExpression mode)))) := by
  rw [readReturn, givesOne]
  split
  · rfl
  · rw [ok_bind, has_eq, optionalBlock, requiredBlock, get?_eq]
    cases block.value.attribute? "expression" with
    | none => simp [ok_bind]
    | some value =>
      dsimp only
      cases ofJson value (block.place.member "expression") with
      | error e => rfl
      | ok inner => simp [ok_bind]

theorem givesOne_eq_ok {one : Bool} :
    givesOne block = .ok one ↔
      block.has "expression" = one ∧ (one = true → block.has "results" = false) := by
  rw [givesOne]
  cases block.has "expression" <;> cases block.has "results" <;> cases one <;> simp

/-- What is read of a statement whose kind is known. -/
def readOfKind : StatementKind → Except Error Outline.Statement
  | .expression => readExpressionStatement mode block
  | .ret => readReturn mode block

theorem readStatement_eq :
    readStatement mode block = block.kind StatementKind >>= readOfKind mode block := by
  rw [readStatement]
  exact congrArg (_ >>= ·) (funext fun kind ↦ by cases kind <;> rfl)

end Steps

end DeclaredSource.Declaration
