import DeclaredSource.Proofs.Declaration.Attributes

/-!
# What reading passes over

Every block of a declaration has a role, and the role says which attributes the block may have and
what stands under them. An attribute is spare when it is null, when its block's role does not know
it, or when the kind of its block passes over it; the last counts in lenient reading only, since
strict reading looks at such attributes in order to refuse them. Taking out any choice of spare
attributes, in any of the blocks, makes no difference to reading, so declarations that come to the
same when thinned are read alike.
-/

namespace DeclaredSource

open FirstFailure

namespace Declaration

inductive Role where
  | file | importSpec | function | signature | field | body | statement
  | expression | call | selector | identifier | literal
  deriving DecidableEq, Repr

/-- What stands under an attribute. -/
inductive Slot where
  | text
  | block (role : Role)
  | list (role : Role)
  deriving DecidableEq, Repr

namespace Role

/-- The attributes that a block may have. -/
def slots : Role → List (String × Slot)
  | .file =>
    [("packageName", .text), ("imports", .list .importSpec), ("functions", .list .function)]
  | .importSpec => [("name", .text), ("path", .text)]
  | .function => [("name", .text), ("signature", .block .signature), ("body", .block .body)]
  | .signature => [("params", .list .field), ("results", .list .field)]
  | .field => [("name", .text), ("type", .text)]
  | .body => [("statements", .list .statement)]
  | .statement =>
    [("kind", .text), ("expression", .block .expression), ("results", .list .expression)]
  | .expression =>
    [("kind", .text), ("call", .block .call), ("selector", .block .selector),
      ("identifier", .block .identifier), ("literal", .block .literal)]
  | .call => [("func", .block .selector), ("args", .list .literal)]
  | .selector => [("from", .text), ("prop", .text)]
  | .identifier => [("name", .text)]
  | .literal => [("kind", .text), ("value", .text)]

def slot? (role : Role) (attr : String) : Option Slot :=
  role.slots.lookup attr

/-- Attributes that the role knows and the kind of the block does not name: the payloads of the
other kinds in an expression, and results in an expression statement. -/
def passesOver (role : Role) (value : Json) (attr : String) : Bool :=
  match role with
  | .expression =>
    match value.kindText?.bind (Vocabulary.read? (κ := ExpressionKind)) with
    | some kind =>
      attr ∈ Vocabulary.spellings ExpressionKind && attr ≠ Vocabulary.spelling kind
    | none => false
  | .statement =>
    value.kindText?.bind Vocabulary.read? = some StatementKind.expression && attr = "results"
  | _ => false

def isSpare (mode : Mode) (role : Role) (value : Json) (attr : String) : Bool :=
  (value.attribute? attr).isNone || (role.slot? attr).isNone ||
    (mode = .lenient && role.passesOver value attr)

end Role

end Declaration

/-! ## Thinning -/

namespace Json

open Declaration

section Thin

variable (mode : Mode) (chosen : Place → String → Bool)

mutual

/-- Takes the chosen ones out of the spare attributes of a block and of the blocks inside it. -/
def thin (role : Role) (place : Place) : Json → Json
  | .object fields => .object (thinFields role place (.object fields) fields)
  | other => other

def thinFields (role : Role) (place : Place) (whole : Json) :
    List (String × Json) → List (String × Json)
  | [] => []
  | (attr, value) :: rest =>
    if chosen place attr && role.isSpare mode whole attr then thinFields role place whole rest
    else
      (attr, match role.slot? attr with
        | some (.block inner) => thin inner (place.member attr) value
        | some (.list inner) => thinList inner (place.member attr) value
        | _ => value) :: thinFields role place whole rest

/-- The items of a list stay. -/
def thinList (role : Role) (place : Place) : Json → Json
  | .array items => .array (thinItems role place 0 items)
  | other => other

def thinItems (role : Role) (place : Place) (index : Nat) : List Json → List Json
  | [] => []
  | item :: rest => thin role (place.item index) item :: thinItems role place (index + 1) rest

end

/-- What becomes of the value of an attribute. -/
def thinAt (slot : Option Slot) (place : Place) (value : Json) : Json :=
  match slot with
  | some (.block inner) => value.thin mode chosen inner place
  | some (.list inner) => value.thinList mode chosen inner place
  | _ => value

variable {mode chosen}

theorem isNull_thinAt (slot : Option Slot) (place : Place) (value : Json) :
    (value.thinAt mode chosen slot place).isNull = value.isNull := by
  rcases slot with _ | slot
  · rfl
  · cases slot <;> cases value <;> rfl

variable (mode chosen) in
theorem lookup_thinFields (role : Role) (place : Place) (whole : Json)
    (fields : List (String × Json)) (attr : String) :
    (thinFields mode chosen role place whole fields).lookup attr =
      if chosen place attr && role.isSpare mode whole attr then none
      else (fields.lookup attr).map (thinAt mode chosen (role.slot? attr) (place.member attr)) := by
  induction fields with
  | nil => simp [thinFields]
  | cons field rest ih =>
    obtain ⟨name, value⟩ := field
    rw [thinFields]
    by_cases hsame : attr = name
    · subst hsame
      split
      · next hspare => rw [ih, if_pos hspare]
      · rw [List.lookup_cons_self, List.lookup_cons_self]
        rfl
    · have hother : (attr == name) = false := beq_false_of_ne hsame
      rw [List.lookup_cons, hother]
      split
      · exact ih
      · rw [List.lookup_cons, hother]
        exact ih

end Thin

end Json

namespace Declaration

variable {mode : Mode} {chosen : Place → String → Bool} {role inner : Role} {block : Block}
  {attr : String} {slot : Slot}

/-- The role knows the attribute, and the kind of the block does not pass over it. -/
structure Role.Reads (mode : Mode) (role : Role) (value : Json) (attr : String) (slot : Slot) :
    Prop where
  known : role.slot? attr = some slot
  named : mode = .lenient → role.passesOver value attr = false

/-- Such an attribute is spare only when it is null. -/
theorem Role.Reads.isSpare {value : Json} (h : role.Reads mode value attr slot) :
    role.isSpare mode value attr = (value.attribute? attr).isNone := by
  rw [Role.isSpare, h.known]
  cases mode with
  | lenient => simp [h.named rfl]
  | strict => simp

namespace Block

/-- The same block without the chosen ones of its spare attributes. -/
def thin (mode : Mode) (chosen : Place → String → Bool) (role : Role) (block : Block) : Block :=
  ⟨Json.thinFields mode chosen role block.place block.value block.fields, block.place⟩

theorem attribute?_thin (h : role.Reads mode block.value attr slot) :
    (block.thin mode chosen role).value.attribute? attr =
      (block.value.attribute? attr).map
        (Json.thinAt mode chosen (some slot) (block.place.member attr)) := by
  have hlookup := Json.lookup_thinFields mode chosen role block.place
    block.value block.fields attr
  rw [h.known, h.isSpare] at hlookup
  change ((Json.thinFields mode chosen role block.place block.value block.fields).lookup
    attr).filter (!·.isNull) = _
  rw [hlookup]
  split
  · next hspare =>
    rw [Option.isNone_iff_eq_none.1 (Bool.and_eq_true_iff.1 hspare).2]
    rfl
  · change _ = ((block.fields.lookup attr).filter (!·.isNull)).map _
    cases block.fields.lookup attr with
    | none => rfl
    | some value =>
      rw [Option.map_some, Option.filter_some, Option.filter_some, Json.isNull_thinAt]
      split <;> rfl

theorem has_thin (h : role.Reads mode block.value attr slot) :
    (block.thin mode chosen role).has attr = block.has attr := by
  rw [has_eq, has_eq, attribute?_thin h, Option.isSome_map]

theorem requiredText_thin (h : role.Reads mode block.value attr .text) :
    (block.thin mode chosen role).requiredText attr = block.requiredText attr := by
  rw [requiredText, requiredText, get?_eq, get?_eq, attribute?_thin h]
  cases block.value.attribute? attr <;> rfl

theorem optionalText_thin (h : role.Reads mode block.value attr .text) :
    (block.thin mode chosen role).optionalText attr = block.optionalText attr := by
  rw [optionalText, optionalText, get?_eq, get?_eq, attribute?_thin h]
  cases block.value.attribute? attr <;> rfl

theorem kind_thin {κ : Type} [Vocabulary κ] (h : role.Reads mode block.value "kind" .text) :
    (block.thin mode chosen role).kind κ = block.kind κ := by
  rw [Block.kind, Block.kind, requiredText_thin h]
  rfl

theorem ofJson_thin (value : Json) (place : Place) :
    ofJson (value.thin mode chosen role place) place =
      Block.thin mode chosen role <$> ofJson value place := by
  cases value <;> rfl

theorem requiredBlock_thin (inner : Role) (h : role.Reads mode block.value attr (.block inner)) :
    (block.thin mode chosen role).requiredBlock attr =
      Block.thin mode chosen inner <$> block.requiredBlock attr := by
  rw [requiredBlock, requiredBlock, get?_eq, get?_eq, attribute?_thin h]
  cases block.value.attribute? attr with
  | none => rfl
  | some value => exact ofJson_thin value _

theorem optionalBlock_thin (inner : Role) (h : role.Reads mode block.value attr (.block inner)) :
    (block.thin mode chosen role).optionalBlock attr =
      Option.map (Block.thin mode chosen inner) <$> block.optionalBlock attr := by
  rw [optionalBlock, optionalBlock, get?_eq, get?_eq, attribute?_thin h]
  cases block.value.attribute? attr with
  | none => rfl
  | some value =>
    have hread : ofJson (value.thin mode chosen inner (block.place.member attr))
        (block.place.member attr) = _ := ofJson_thin value (block.place.member attr)
    change some <$> ofJson (value.thin mode chosen inner (block.place.member attr))
        (block.place.member attr) = _
    rw [hread]
    simp only [Functor.map_map]
    rfl

theorem mapM_thinItems (place : Place) (items : List Json) (index : Nat) :
    ((Json.thinItems mode chosen role place index items).zipIdx index).mapM
        (fun (item, index) ↦ ofJson item (place.item index)) =
      List.map (Block.thin mode chosen role) <$>
        (items.zipIdx index).mapM fun (item, index) ↦ ofJson item (place.item index) := by
  induction items generalizing index with
  | nil => rfl
  | cons item rest ih =>
    rw [Json.thinItems, List.zipIdx_cons, List.zipIdx_cons, List.mapM_cons, List.mapM_cons, ih]
    dsimp only
    rw [ofJson_thin]
    simp [map_bind, bind_map_left]

theorem blocks_thin (inner : Role) (h : role.Reads mode block.value attr (.list inner)) :
    (block.thin mode chosen role).blocks attr =
      List.map (Block.thin mode chosen inner) <$> block.blocks attr := by
  rw [blocks, blocks, get?_eq, get?_eq, attribute?_thin h]
  cases block.value.attribute? attr with
  | none => rfl
  | some value =>
    cases value with
    | array items => exact mapM_thinItems (block.place.member attr) items 0
    | _ => rfl

end Block

/-! ## Readers -/

open Block

theorem mapM_thin {α : Type} {reader : Block → Except Error α}
    (h : ∀ block : Block, reader (block.thin mode chosen role) = reader block)
    (blocks : List Block) :
    (blocks.map (Block.thin mode chosen role)).mapM reader = blocks.mapM reader := by
  rw [List.mapM_map]
  exact congrArg (blocks.mapM ·) (funext h)

theorem readLiteral_thin (block : Block) :
    readLiteral (block.thin mode chosen .literal) = readLiteral block := by
  rw [readLiteral, readLiteral, kind_thin ⟨rfl, fun _ ↦ rfl⟩,
    requiredText_thin ⟨rfl, fun _ ↦ rfl⟩]

theorem readSelector_thin (block : Block) :
    readSelector (block.thin mode chosen .selector) = readSelector block := by
  rw [readSelector, readSelector, optionalText_thin ⟨rfl, fun _ ↦ rfl⟩,
    requiredText_thin ⟨rfl, fun _ ↦ rfl⟩]

theorem readCall_thin (block : Block) :
    readCall (block.thin mode chosen .call) = readCall block := by
  rw [readCall, readCall, requiredBlock_thin .selector ⟨rfl, fun _ ↦ rfl⟩,
    blocks_thin .literal ⟨rfl, fun _ ↦ rfl⟩]
  simp only [bind_map_left, readSelector_thin, mapM_thin readLiteral_thin]

/-- The role of the payload of an expression. -/
def payloadRole : ExpressionKind → Role
  | .call => .call
  | .selector => .selector
  | .identifier => .identifier
  | .literal => .literal

theorem readPayload_thin (kind : ExpressionKind) (block : Block) :
    readPayload (block.thin mode chosen (payloadRole kind)) kind = readPayload block kind := by
  cases kind with
  | call => exact readCall_thin block
  | selector => exact congrArg (_ <$> ·) (readSelector_thin block)
  | identifier => exact congrArg (_ <$> ·) (requiredText_thin ⟨rfl, fun _ ↦ rfl⟩)
  | literal => exact congrArg (_ <$> ·) (readLiteral_thin block)

theorem kind_eq_ok_iff {κ : Type} [Vocabulary κ] {kind : κ} :
    block.kind κ = .ok kind ↔ block.value.kindText?.bind Vocabulary.read? = some kind := by
  rw [kind_eq_ok, Option.bind_eq_some_iff]

theorem slot?_payload (kind : ExpressionKind) :
    Role.slot? .expression (Vocabulary.spelling kind) = some (.block (payloadRole kind)) := by
  cases kind <;> rfl

theorem reads_expression_kind (block : Block) :
    Role.Reads mode .expression block.value "kind" .text where
  known := rfl
  named := by
    intro _
    rw [Role.passesOver]
    split <;> rfl

/-- The kind of an expression names its own payload. -/
theorem reads_payload {kind : ExpressionKind} (h : block.kind ExpressionKind = .ok kind) :
    Role.Reads mode .expression block.value (Vocabulary.spelling kind)
      (.block (payloadRole kind)) where
  known := slot?_payload kind
  named := by
    intro _
    rw [Role.passesOver, kind_eq_ok_iff.1 h]
    simp

/-- Strict reading looks at every payload. -/
theorem refuseStray_thin (kind : ExpressionKind) (block : Block) :
    refuseStray mode (block.thin mode chosen .expression) kind = refuseStray mode block kind := by
  cases mode with
  | lenient => simp [refuseStray]
  | strict =>
    have hhas (other : ExpressionKind) :
        (block.thin .strict chosen .expression).has (Vocabulary.spelling other) =
          block.has (Vocabulary.spelling other) := has_thin ⟨slot?_payload other, nofun⟩
    simp only [refuseStray, strayPayload?, hhas]
    rfl

theorem readExpression_thin (block : Block) :
    readExpression mode (block.thin mode chosen .expression) = readExpression mode block := by
  rw [readExpression, readExpression, kind_thin (reads_expression_kind block)]
  cases hkind : block.kind ExpressionKind with
  | error error => rfl
  | ok kind =>
    rw [ok_bind, ok_bind, refuseStray_thin, requiredBlock_thin _ (reads_payload hkind)]
    simp only [bind_map_left, readPayload_thin]

theorem reads_statement {slot : Slot} (hknown : Role.slot? .statement attr = some slot)
    (hattr : attr ≠ "results") : Role.Reads mode .statement block.value attr slot where
  known := hknown
  named := by
    intro _
    simp [Role.passesOver, hattr]

theorem readExpressionStatement_thin (block : Block) :
    readExpressionStatement mode (block.thin mode chosen .statement) =
      readExpressionStatement mode block := by
  have hresults : (mode = .strict && (block.thin mode chosen .statement).has "results") =
      (mode = .strict && block.has "results") := by
    cases mode with
    | lenient => rfl
    | strict =>
      have hlooked : Role.Reads .strict .statement block.value "results" (.list .expression) :=
        ⟨rfl, nofun⟩
      rw [has_thin hlooked]
  rw [readExpressionStatement, hresults, readExpressionStatement,
    requiredBlock_thin _ (reads_statement rfl (by decide))]
  simp only [bind_map_left, readExpression_thin]
  rfl

theorem readReturn_thin (h : block.kind StatementKind = .ok .ret) :
    readReturn mode (block.thin mode chosen .statement) = readReturn mode block := by
  have hexpression : Role.Reads mode .statement block.value "expression" (.block .expression) :=
    reads_statement rfl (by decide)
  have hresults : Role.Reads mode .statement block.value "results" (.list .expression) := by
    refine ⟨rfl, fun _ ↦ ?_⟩
    rw [Role.passesOver, kind_eq_ok_iff.1 h]
    rfl
  rw [readReturn, readReturn, has_thin hexpression, has_thin hresults,
    optionalBlock_thin _ hexpression, blocks_thin _ hresults]
  split
  · rfl
  · rw [bind_map_left]
    refine congrArg (_ >>= ·) (funext fun value ↦ ?_)
    cases value with
    | none => simp only [Option.map_none, bind_map_left, mapM_thin readExpression_thin]
    | some inner => simp only [Option.map_some, readExpression_thin]

theorem readStatement_thin (block : Block) :
    readStatement mode (block.thin mode chosen .statement) = readStatement mode block := by
  rw [readStatement, readStatement, kind_thin (reads_statement rfl (by decide))]
  cases hkind : block.kind StatementKind with
  | error error => rfl
  | ok kind =>
    cases kind with
    | expression => exact readExpressionStatement_thin block
    | ret => exact readReturn_thin hkind

theorem readBody_thin (body : Option Block) :
    readBody mode (body.map (Block.thin mode chosen .body)) = readBody mode body := by
  cases body with
  | none => rfl
  | some block =>
    rw [Option.map_some, readBody, readBody,
      blocks_thin .statement ⟨rfl, fun _ ↦ rfl⟩, bind_map_left]
    simp only [mapM_thin readStatement_thin]

theorem readField_thin (block : Block) :
    readField (block.thin mode chosen .field) = readField block := by
  rw [readField, readField, optionalText_thin ⟨rfl, fun _ ↦ rfl⟩,
    optionalText_thin ⟨rfl, fun _ ↦ rfl⟩]

theorem readFields_thin (h : role.Reads mode block.value attr (.list .field)) :
    readFields (block.thin mode chosen role) attr = readFields block attr := by
  rw [readFields, readFields, blocks_thin _ h, bind_map_left]
  simp only [mapM_thin readField_thin]

theorem readSignature_thin (signature : Option Block) :
    readSignature (signature.map (Block.thin mode chosen .signature)) =
      readSignature signature := by
  cases signature with
  | none => rfl
  | some block =>
    rw [Option.map_some, readSignature, readSignature, readFields_thin ⟨rfl, fun _ ↦ rfl⟩,
      readFields_thin ⟨rfl, fun _ ↦ rfl⟩]

theorem readFunction_thin (block : Block) :
    readFunction mode (block.thin mode chosen .function) = readFunction mode block := by
  rw [readFunction, readFunction, requiredText_thin ⟨rfl, fun _ ↦ rfl⟩,
    optionalBlock_thin .signature ⟨rfl, fun _ ↦ rfl⟩,
    optionalBlock_thin .body ⟨rfl, fun _ ↦ rfl⟩]
  simp only [bind_map_left, readSignature_thin, readBody_thin]

theorem readImport_thin (block : Block) :
    readImport (block.thin mode chosen .importSpec) = readImport block := by
  rw [readImport, readImport, optionalText_thin ⟨rfl, fun _ ↦ rfl⟩,
    requiredText_thin ⟨rfl, fun _ ↦ rfl⟩]

theorem read_thin (declaration : Json) :
    read mode (declaration.thin mode chosen .file .root) = read mode declaration := by
  rw [read, read, ofJson_thin, bind_map_left]
  refine congrArg (_ >>= ·) (funext fun root ↦ ?_)
  rw [requiredText_thin ⟨rfl, fun _ ↦ rfl⟩, blocks_thin .importSpec ⟨rfl, fun _ ↦ rfl⟩,
    blocks_thin .function ⟨rfl, fun _ ↦ rfl⟩]
  simp only [bind_map_left, mapM_thin readImport_thin, mapM_thin readFunction_thin]

/-- Whichever spare attributes are taken out of whichever blocks, the answer stays the same, be it
an outline or an error with its node. So declarations that come to the same when thinned are read
alike. -/
theorem read_passes_over_spare (mode : Mode) (declaration : Json) :
    (∀ chosen, read mode (declaration.thin mode chosen .file .root) = read mode declaration) ∧
      ∀ other chosen chosen',
        declaration.thin mode chosen .file .root = other.thin mode chosen' .file .root →
          read mode declaration = read mode other := by
  refine ⟨fun chosen ↦ read_thin declaration, ?_⟩
  intro other chosen chosen' hsame
  calc
    read mode declaration = read mode (declaration.thin mode chosen .file .root) :=
      (read_thin declaration).symm
    _ = read mode (other.thin mode chosen' .file .root) := by rw [hsame]
    _ = read mode other := read_thin other

/-- An expression statement with results, whose expression has a payload of another kind, a null
payload and an attribute that no expression has. -/
theorem read_passes_over_crowd :
    let declaration (statement : List (String × Json)) : Json := .object
      [("packageName", .string "main"), ("functions", .array [.object [("name", .string "f"),
        ("body", .object [("statements", .array [.object statement])])]])]
    let identifier : Json := .object [("name", .string "x")]
    let plain := declaration [("kind", .string "expression"), ("expression", .object
      [("kind", .string "identifier"), ("identifier", identifier)])]
    let crowded := declaration [("results", .bool true), ("kind", .string "expression"),
      ("expression", .object [("call", .null), ("kind", .string "identifier"),
        ("literal", .array []), ("identifier", identifier), ("note", identifier)])]
    crowded.thin .lenient (fun _ _ ↦ true) .file .root = plain ∧
      read .lenient crowded = read .lenient plain := by
  intro declaration identifier plain crowded
  have hsame : crowded.thin .lenient (fun _ _ ↦ true) .file .root =
      plain.thin .lenient (fun _ _ ↦ true) .file .root := rfl
  exact ⟨rfl, (read_passes_over_spare .lenient crowded).2 plain _ _ hsame⟩

end Declaration

end DeclaredSource
