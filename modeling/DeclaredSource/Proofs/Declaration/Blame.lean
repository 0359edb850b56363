import DeclaredSource.Proofs.Declaration.Attributes

/-!
# Reading errors hold at their node

The place in an error is followed from the root of the declaration, through the fields of objects
and the positions of lists. Every error that reading ends with leads to a value of the declaration
in this way, and that value has the fault which the error reports. The invariant carried through
the readers is that a block stands in the declaration at its place; refusals of attributes that
belong to another kind arise in strict reading only.
-/

namespace DeclaredSource

open FirstFailure

namespace Json

open Declaration in
/-- The value that a place leads to. -/
def follow : Json → List Segment → Option Json
  | value, [] => some value
  | .object fields, .member name :: rest => (fields.lookup name).bind (follow · rest)
  | .array items, .item index :: rest => items[index]?.bind (follow · rest)
  | _, _ :: _ => none

open Declaration in
theorem follow_append (value : Json) (first rest : List Segment) :
    value.follow (first ++ rest) = (value.follow first).bind (follow · rest) := by
  induction first generalizing value with
  | nil => simp [follow]
  | cons segment first ih =>
    rw [List.cons_append]
    match value, segment with
    | .object fields, .member name => cases h : fields.lookup name <;> simp [follow, h, ih]
    | .array items, .item index => cases h : items[index]? <;> simp [follow, h, ih]
    | .null, _ | .bool _, _ | .number _, _ | .string _, _ => simp [follow]
    | .object _, .item _ | .array _, .member _ => simp [follow]

theorem attribute?_eq_some {value inner : Json} {attr : String}
    (h : value.attribute? attr = some inner) :
    inner.isNull = false ∧ value.follow [.member attr] = some inner := by
  cases value with
  | object fields =>
    obtain ⟨hlookup, hnull⟩ := Option.filter_eq_some_iff.1 h
    exact ⟨by simpa using hnull, by simp [follow, hlookup]⟩
  | _ => cases h

/-- Only null and composite values have no text. -/
theorem shape_of_scalarText? {value : Json} (htext : value.scalarText? = none)
    (hnull : value.isNull = false) : value.shape = .array ∨ value.shape = .object := by
  cases value <;> simp_all [scalarText?, isNull, shape]

end Json

namespace Declaration

/-- The constructs that have kinds, each with the spellings of its kinds. -/
def vocabularies : List (String × List String) :=
  [(Vocabulary.construct ExpressionKind, Vocabulary.spellings ExpressionKind),
    (Vocabulary.construct StatementKind, Vocabulary.spellings StatementKind),
    (Vocabulary.construct LiteralKind, Vocabulary.spellings LiteralKind)]

/-- Whether a value of the second shape cannot stand where the first is asked for. -/
def Unfit : Json.Shape → Json.Shape → Prop
  | .object, found => found ≠ .object
  | .array, found => found ≠ .array
  | .string, found => found = .array ∨ found = .object
  | _, _ => False

/-- The value has the fault that the error reports. -/
def Error.HoldsAt (value : Json) : Error → Prop
  | .missingAttribute _ attr => value.shape = .object ∧ value.attribute? attr = none
  | .typeMismatch _ expected found => value.shape = found ∧ Unfit expected found
  | .unsupportedKind _ construct kind expected =>
    value.shape = .object ∧ value.kindText? = some kind ∧ (construct, expected) ∈ vocabularies ∧
      kind ∉ expected
  | .conflictingAttributes _ first second =>
    value.shape = .object ∧ value.kindText? = some (Vocabulary.spelling StatementKind.ret) ∧
      (first, second) = ("expression", "results") ∧ (value.attribute? first).isSome ∧
      (value.attribute? second).isSome
  | .unexpectedBlock _ kind block =>
    value.shape = .object ∧ value.kindText? = some kind ∧ Foreign kind block ∧
      (value.attribute? block).isSome

def Error.IsRefusal : Error → Prop
  | .unexpectedBlock .. => True
  | _ => False

/-- What holds of every error that reading a declaration ends with. -/
structure Justified (mode : Mode) (root : Json) (error : Error) : Prop where
  atNode : ∃ value, root.follow error.node.segments = some value ∧ error.HoldsAt value
  strictly : error.IsRefusal → mode = .strict

def Block.StandsIn (root : Json) (block : Block) : Prop :=
  root.follow block.place.segments = some block.value

variable {mode : Mode} {root : Json} {block : Block}

theorem Justified.of_block {error : Error} (h : block.StandsIn root)
    (hnode : error.node = block.place) (hholds : error.HoldsAt block.value)
    (hmode : ¬ error.IsRefusal) : Justified mode root error where
  atNode := ⟨block.value, hnode ▸ h, hholds⟩
  strictly hrefusal := absurd hrefusal hmode

namespace Block

theorem follow_member (h : block.StandsIn root) {attr : String} {inner : Json}
    (hattr : block.value.attribute? attr = some inner) :
    inner.isNull = false ∧ root.follow (block.place.member attr).segments = some inner := by
  obtain ⟨hnull, hfollow⟩ := Json.attribute?_eq_some hattr
  refine ⟨hnull, ?_⟩
  rw [Place.member, Json.follow_append, h]
  exact hfollow

theorem textOf_justified {value : Json} {place : Place}
    (hplace : root.follow place.segments = some value) (hnull : value.isNull = false) :
    FailsOnly (Justified mode root) (textOf value place) := by
  rw [textOf]
  cases htext : value.scalarText? with
  | some text => exact .ok text
  | none =>
    exact .error ⟨⟨value, hplace, rfl, Json.shape_of_scalarText? htext hnull⟩, False.elim⟩

theorem ofJson_justified {value : Json} {place : Place}
    (hplace : root.follow place.segments = some value) :
    FailsOnly (Justified mode root) (ofJson value place) := by
  intro error h
  obtain ⟨hshape, rfl⟩ := ofJson_eq_error h
  exact ⟨⟨value, hplace, rfl, hshape⟩, False.elim⟩

theorem standsIn_of_ofJson {value : Json} {place : Place} {inner : Block}
    (hplace : root.follow place.segments = some value) (h : ofJson value place = .ok inner) :
    inner.StandsIn root := by
  obtain ⟨rfl, hinner⟩ := ofJson_eq_ok.1 h
  rw [StandsIn, hinner, hplace]

theorem missing_justified (h : block.StandsIn root) {attr : String}
    (hattr : block.value.attribute? attr = none) :
    Justified mode root (.missingAttribute block.place attr) :=
  .of_block h rfl ⟨rfl, hattr⟩ id

theorem requiredText_justified (h : block.StandsIn root) (attr : String) :
    FailsOnly (Justified mode root) (block.requiredText attr) := by
  rw [requiredText, get?_eq]
  cases hattr : block.value.attribute? attr with
  | none => exact .error (missing_justified h hattr)
  | some value =>
    obtain ⟨hnull, hfollow⟩ := follow_member h hattr
    exact textOf_justified hfollow hnull

theorem optionalText_justified (h : block.StandsIn root) (attr : String) :
    FailsOnly (Justified mode root) (block.optionalText attr) := by
  rw [optionalText, get?_eq]
  cases hattr : block.value.attribute? attr with
  | none => exact .ok none
  | some value =>
    obtain ⟨hnull, hfollow⟩ := follow_member h hattr
    exact .map some (textOf_justified hfollow hnull)

theorem requiredBlock_justified (h : block.StandsIn root) (attr : String) :
    FailsOnly (Justified mode root) (block.requiredBlock attr) := by
  rw [requiredBlock, get?_eq]
  cases hattr : block.value.attribute? attr with
  | none => exact .error (missing_justified h hattr)
  | some value => exact ofJson_justified (follow_member h hattr).2

theorem optionalBlock_justified (h : block.StandsIn root) (attr : String) :
    FailsOnly (Justified mode root) (block.optionalBlock attr) := by
  rw [optionalBlock, get?_eq]
  cases hattr : block.value.attribute? attr with
  | none => exact .ok none
  | some value => exact .map some (ofJson_justified (follow_member h hattr).2)

theorem standsIn_member (h : block.StandsIn root) {attr : String} {inner : Block}
    (hvalue : block.value.attribute? attr = some inner.value)
    (hplace : inner.place = block.place.member attr) : inner.StandsIn root := by
  rw [StandsIn, hplace]
  exact (follow_member h hvalue).2

theorem follow_item (h : block.StandsIn root) {attr : String} {items : List Json}
    (hattr : block.value.attribute? attr = some (.array items)) {item : Json} {index : Nat}
    (hitem : (item, index) ∈ items.zipIdx) :
    root.follow ((block.place.member attr).item index).segments = some item := by
  rw [Place.item, Json.follow_append, (follow_member h hattr).2]
  have hget := List.mk_mem_zipIdx_iff_getElem?.1 hitem
  simp [Json.follow, hget]

theorem blocks_justified (h : block.StandsIn root) (attr : String) :
    FailsOnly (Justified mode root) (block.blocks attr) := by
  rw [blocks, get?_eq]
  cases hattr : block.value.attribute? attr with
  | none => exact .ok []
  | some value =>
    have hfollow := (follow_member h hattr).2
    cases value with
    | array items =>
      refine .mapM fun item hitem ↦ ?_
      exact ofJson_justified (follow_item h hattr hitem)
    | _ => exact .error ⟨⟨_, hfollow, rfl, by simp [Unfit, Json.shape]⟩, False.elim⟩

theorem standsIn_blocks (h : block.StandsIn root) {attr : String} {blocks : List Block}
    (hblocks : block.blocks attr = .ok blocks) : ∀ inner ∈ blocks, inner.StandsIn root := by
  rw [Block.blocks, get?_eq] at hblocks
  cases hattr : block.value.attribute? attr with
  | none =>
    rw [hattr] at hblocks
    cases hblocks
    simp
  | some value =>
    rw [hattr] at hblocks
    cases value with
    | array items =>
      intro inner hinner
      obtain ⟨⟨item, index⟩, hitem, hread⟩ := exists_mem_of_mapM hblocks hinner
      exact standsIn_of_ofJson (follow_item h hattr hitem) hread
    | _ => cases hblocks

theorem kind_justified {κ : Type} [Vocabulary κ]
    (hκ : (Vocabulary.construct κ, Vocabulary.spellings κ) ∈ vocabularies)
    (h : block.StandsIn root) : FailsOnly (Justified mode root) (block.kind κ) := by
  rw [Block.kind]
  refine .bind (requiredText_justified h "kind") fun text htext ↦ ?_
  cases hread : (Vocabulary.read? text : Option κ) with
  | some kind => exact .ok kind
  | none =>
    have hkind : block.value.kindText? = some text := requiredText_eq_ok.1 htext
    have hunknown := Vocabulary.not_mem_spellings_of_read? hread
    exact .error (.of_block h rfl ⟨rfl, hkind, hκ, hunknown⟩ id)

end Block

open Block

theorem readLiteral_justified (h : block.StandsIn root) :
    FailsOnly (Justified mode root) (readLiteral block) := by
  refine .bind (kind_justified (by simp [vocabularies]) h) fun kind _ ↦ ?_
  exact .bind (requiredText_justified h "value") fun text _ ↦ .ok _

theorem readSelector_justified (h : block.StandsIn root) :
    FailsOnly (Justified mode root) (readSelector block) := by
  refine .bind (optionalText_justified h "from") fun base _ ↦ ?_
  exact .bind (requiredText_justified h "prop") fun member _ ↦ .ok _

theorem readCall_justified (h : block.StandsIn root) :
    FailsOnly (Justified mode root) (readCall block) := by
  refine .bind (requiredBlock_justified h "func") fun callee hcallee ↦ ?_
  obtain ⟨hvalue, hplace⟩ := requiredBlock_eq_ok.1 hcallee
  refine .bind (readSelector_justified (standsIn_member h hvalue hplace)) fun selector _ ↦ ?_
  refine .bind (blocks_justified h "args") fun arguments harguments ↦ ?_
  refine .bind (.mapM fun argument hargument ↦ ?_) fun literals _ ↦ .ok _
  exact readLiteral_justified (standsIn_blocks h harguments argument hargument)

theorem readPayload_justified (h : block.StandsIn root) (kind : ExpressionKind) :
    FailsOnly (Justified mode root) (readPayload block kind) := by
  cases kind with
  | call => exact readCall_justified h
  | selector => exact .map _ (readSelector_justified h)
  | identifier => exact .map _ (requiredText_justified h "name")
  | literal => exact .map _ (readLiteral_justified h)

theorem strayPayload?_eq_some {kind other : ExpressionKind}
    (h : strayPayload? block kind = some other) :
    other ≠ kind ∧ (block.value.attribute? (Vocabulary.spelling other)).isSome := by
  simpa [has_eq] using List.find?_some h

theorem refuseStray_justified (h : block.StandsIn root) {kind : ExpressionKind}
    (hkind : block.kind ExpressionKind = .ok kind) :
    FailsOnly (Justified mode root) (refuseStray mode block kind) := by
  unfold refuseStray
  split
  · next other hstray =>
    obtain ⟨hdifferent, hset⟩ := strayPayload?_eq_some hstray
    have hholds : (Error.unexpectedBlock block.place (Vocabulary.spelling kind)
        (Vocabulary.spelling other)).HoldsAt block.value :=
      ⟨rfl, kindText?_of_kind hkind, .payload kind other hdifferent, hset⟩
    exact .error ⟨⟨block.value, h, hholds⟩, fun _ ↦ rfl⟩
  · exact .ok ()

theorem readExpression_justified (h : block.StandsIn root) :
    FailsOnly (Justified mode root) (readExpression mode block) := by
  refine .bind (kind_justified (by simp [vocabularies]) h) fun kind hkind ↦ ?_
  refine .bind (refuseStray_justified h hkind) fun _ _ ↦ ?_
  refine .bind (requiredBlock_justified h _) fun payload hpayload ↦ ?_
  obtain ⟨hvalue, hplace⟩ := requiredBlock_eq_ok.1 hpayload
  exact readPayload_justified (standsIn_member h hvalue hplace) kind

theorem readExpressionStatement_justified (h : block.StandsIn root)
    (hkind : block.kind StatementKind = .ok .expression) :
    FailsOnly (Justified mode root) (readExpressionStatement mode block) := by
  rw [readExpressionStatement]
  split
  · next hrefused =>
    simp only [Bool.and_eq_true, decide_eq_true_eq] at hrefused
    have hholds : (Error.unexpectedBlock block.place
        (Vocabulary.spelling StatementKind.expression) "results").HoldsAt block.value :=
      ⟨rfl, kindText?_of_kind hkind, .results, hrefused.2⟩
    exact .error ⟨⟨block.value, h, hholds⟩, fun _ ↦ hrefused.1⟩
  · refine .bind (requiredBlock_justified h "expression") fun inner hinner ↦ ?_
    obtain ⟨hvalue, hplace⟩ := requiredBlock_eq_ok.1 hinner
    exact .bind (readExpression_justified (standsIn_member h hvalue hplace)) fun e _ ↦ .ok _

theorem readReturn_justified (h : block.StandsIn root)
    (hkind : block.kind StatementKind = .ok .ret) :
    FailsOnly (Justified mode root) (readReturn mode block) := by
  rw [readReturn]
  split
  · next hboth =>
    rw [Bool.and_eq_true] at hboth
    have hholds : (Error.conflictingAttributes block.place "expression" "results").HoldsAt
        block.value := ⟨rfl, kindText?_of_kind hkind, rfl, hboth⟩
    exact .error (.of_block h rfl hholds id)
  · refine .bind (optionalBlock_justified h "expression") fun value hvalue ↦ ?_
    cases value with
    | some inner =>
      obtain ⟨hinner, hplace⟩ := optionalBlock_eq_some.1 hvalue
      exact .bind (readExpression_justified (standsIn_member h hinner hplace)) fun e _ ↦ .ok _
    | none =>
      refine .bind (blocks_justified h "results") fun inner hinner ↦ ?_
      refine .bind (.mapM fun value hmem ↦ ?_) fun values _ ↦ .ok _
      exact readExpression_justified (standsIn_blocks h hinner value hmem)

theorem readStatement_justified (h : block.StandsIn root) :
    FailsOnly (Justified mode root) (readStatement mode block) := by
  refine .bind (kind_justified (by simp [vocabularies]) h) fun kind hkind ↦ ?_
  cases kind with
  | expression => exact readExpressionStatement_justified h hkind
  | ret => exact readReturn_justified h hkind

theorem readField_justified (h : block.StandsIn root) :
    FailsOnly (Justified mode root) (readField block) := by
  refine .bind (optionalText_justified h "name") fun name _ ↦ ?_
  exact .bind (optionalText_justified h "type") fun type _ ↦ .ok _

theorem readFields_justified (h : block.StandsIn root) (attr : String) :
    FailsOnly (Justified mode root) (readFields block attr) := by
  refine .bind (blocks_justified h attr) fun fields hfields ↦ .mapM fun field hfield ↦ ?_
  exact readField_justified (standsIn_blocks h hfields field hfield)

theorem readSignature_justified {signature : Option Block}
    (h : ∀ inner, signature = some inner → inner.StandsIn root) :
    FailsOnly (Justified mode root) (readSignature signature) := by
  cases signature with
  | none => exact .ok _
  | some inner =>
    refine .bind (readFields_justified (h inner rfl) "params") fun params _ ↦ ?_
    exact .bind (readFields_justified (h inner rfl) "results") fun results _ ↦ .ok _

theorem readBody_justified {body : Option Block}
    (h : ∀ inner, body = some inner → inner.StandsIn root) :
    FailsOnly (Justified mode root) (readBody mode body) := by
  cases body with
  | none => exact .ok _
  | some inner =>
    refine .bind (blocks_justified (h inner rfl) "statements") fun statements hstatements ↦ ?_
    refine .mapM fun statement hmem ↦ ?_
    exact readStatement_justified (standsIn_blocks (h inner rfl) hstatements statement hmem)

theorem standsIn_optionalBlock (h : block.StandsIn root) {attr : String} {result : Option Block}
    (hresult : block.optionalBlock attr = .ok result) :
    ∀ inner, result = some inner → inner.StandsIn root := by
  rintro inner rfl
  obtain ⟨hvalue, hplace⟩ := optionalBlock_eq_some.1 hresult
  exact standsIn_member h hvalue hplace

theorem readFunction_justified (h : block.StandsIn root) :
    FailsOnly (Justified mode root) (readFunction mode block) := by
  refine .bind (requiredText_justified h "name") fun name _ ↦ ?_
  refine .bind (optionalBlock_justified h "signature") fun signature hsignature ↦ ?_
  refine .bind (readSignature_justified (standsIn_optionalBlock h hsignature)) fun fields _ ↦ ?_
  refine .bind (optionalBlock_justified h "body") fun body hbody ↦ ?_
  exact .bind (readBody_justified (standsIn_optionalBlock h hbody)) fun statements _ ↦ .ok _

theorem readImport_justified (h : block.StandsIn root) :
    FailsOnly (Justified mode root) (readImport block) := by
  refine .bind (optionalText_justified h "name") fun localName _ ↦ ?_
  exact .bind (requiredText_justified h "path") fun path _ ↦ .ok _

/-- The root stands in itself, and from there on every reader is given blocks that stand in it. -/
theorem read_justified (mode : Mode) (root : Json) :
    FailsOnly (Justified mode root) (read mode root) := by
  have hroot : root.follow Place.root.segments = some root := rfl
  refine .bind (ofJson_justified hroot) fun block hblock ↦ ?_
  have h : block.StandsIn root := standsIn_of_ofJson hroot hblock
  refine .bind (requiredText_justified h "packageName") fun package _ ↦ ?_
  refine .bind (blocks_justified h "imports") fun specs hspecs ↦ ?_
  refine .bind (.mapM fun spec hspec ↦ ?_) fun imports _ ↦ ?_
  · exact readImport_justified (standsIn_blocks h hspecs spec hspec)
  refine .bind (blocks_justified h "functions") fun blocks hblocks ↦ ?_
  refine .bind (.mapM fun inner hinner ↦ ?_) fun functions _ ↦ .ok _
  exact readFunction_justified (standsIn_blocks h hblocks inner hinner)

/-- Following the node of an error from the root reaches a value with the fault it reports. -/
theorem error_holds_at_node {mode : Mode} {declaration : Json} {error : Error}
    (h : read mode declaration = .error error) :
    ∃ value, declaration.follow error.node.segments = some value ∧ error.HoldsAt value :=
  (read_justified mode declaration error h).atNode

/-- A literal of an unknown kind, four levels below the root, as an argument of a call. -/
theorem error_holds_at_unknown_argument :
    let argument : Json := .object [("kind", .string "float"), ("value", .string "1.5")]
    let call : Json := .object
      [("func", .object [("prop", .string "f")]), ("args", .array [argument])]
    let statement : Json := .object [("kind", .string "expression"),
      ("expression", .object [("kind", .string "call"), ("call", call)])]
    let declaration : Json := .object [("packageName", .string "main"),
      ("functions", .array [.object [("name", .string "g"),
        ("body", .object [("statements", .array [statement])])]])]
    let node : Place := ⟨[.member "functions", .item 0, .member "body", .member "statements",
      .item 0, .member "expression", .member "call", .member "args", .item 0]⟩
    let error : Error := .unsupportedKind node "literal" "float" ["identifier", "string", "int"]
    read .lenient declaration = .error error ∧
      ∃ value, declaration.follow node.segments = some value ∧ error.HoldsAt value := by
  intro argument call statement declaration node error
  have h : read .lenient declaration = .error error := rfl
  exact ⟨h, error_holds_at_node h⟩

end Declaration

end DeclaredSource
