import DeclaredSource.Proofs.Declaration.Attributes

/-!
# What declarations express

An outline is written as a declaration block by block: a part that is absent is left out, and the
values of a return are always a list. What was written so is read back as the same outline in
either mode, unless an import has an empty local name. No declaration is read as an outline with an
empty local name, so declarations express all other outlines and no more.
-/

namespace DeclaredSource

open FirstFailure

namespace Outline

/-- An attribute that is left out when there is no text for it. -/
def optionalAttribute (name : String) (text : Option String) : List (String × Json) :=
  (text.map fun text ↦ (name, .string text)).toList

def Literal.kind : Literal → LiteralKind
  | .identifier _ => .identifier
  | .string _ => .string
  | .int _ => .int

def Literal.text : Literal → String
  | .identifier text => text
  | .string text => text
  | .int text => text

def Literal.declaration (literal : Literal) : Json :=
  .object [("kind", .string (Vocabulary.spelling literal.kind)), ("value", .string literal.text)]

def Selector.declaration (selector : Selector) : Json :=
  .object (optionalAttribute "from" selector.base ++ [("prop", .string selector.member)])

def Expression.kind : Expression → ExpressionKind
  | .call _ _ => .call
  | .selector _ => .selector
  | .literal _ => .literal
  | .identifier _ => .identifier

def Expression.payload : Expression → Json
  | .call callee arguments =>
    .object [("func", callee.declaration), ("args", .array (arguments.map Literal.declaration))]
  | .selector value => value.declaration
  | .literal value => value.declaration
  | .identifier name => .object [("name", .string name)]

def Expression.declaration (expression : Expression) : Json :=
  .object [("kind", .string (Vocabulary.spelling expression.kind)),
    (Vocabulary.spelling expression.kind, expression.payload)]

def Statement.declaration : Statement → Json
  | .expression value =>
    .object [("kind", .string (Vocabulary.spelling StatementKind.expression)),
      ("expression", value.declaration)]
  | .ret values =>
    .object [("kind", .string (Vocabulary.spelling StatementKind.ret)),
      ("results", .array (values.map Expression.declaration))]

def Field.declaration (field : Field) : Json :=
  .object (optionalAttribute "name" field.name ++ optionalAttribute "type" field.type)

def Function.signature (function : Function) : Json :=
  .object [("params", .array (function.params.map Field.declaration)),
    ("results", .array (function.results.map Field.declaration))]

def Function.declaration (function : Function) : Json :=
  .object [("name", .string function.name), ("signature", function.signature),
    ("body", .object [("statements", .array (function.body.map Statement.declaration))])]

def Import.declaration (spec : Import) : Json :=
  .object (optionalAttribute "name" spec.localName ++ [("path", .string spec.path)])

def File.declaration (outline : File) : Json :=
  .object [("packageName", .string outline.package),
    ("imports", .array (outline.imports.map Import.declaration)),
    ("functions", .array (outline.functions.map Function.declaration))]

/-- An import that has a local name has one with something in it. -/
def Import.NamedOrBare (spec : Import) : Prop :=
  spec.localName ≠ some ""

end Outline

namespace Declaration

open Outline

/-- Wherever the value stands, the reader makes the same of it. -/
def ReadsAs {α : Type} (reader : Block → Except Error α) (value : Json) (result : α) : Prop :=
  value.shape = .object ∧ ∀ block : Block, block.value = value → reader block = .ok result

variable {mode : Mode} {block : Block}

namespace Block

theorem requiredText_of_string {attr text : String}
    (h : block.value.attribute? attr = some (.string text)) :
    block.requiredText attr = .ok text := by
  rw [requiredText_eq_ok, h]
  rfl

theorem optionalText_of_string {attr : String} {text : Option String}
    (h : block.value.attribute? attr = text.map .string) : block.optionalText attr = .ok text := by
  rw [optionalText, get?_eq, h]
  cases text <;> rfl

theorem kind_of_spelling {κ : Type} [Vocabulary κ] {kind : κ}
    (hread : Vocabulary.read? (Vocabulary.spelling kind) = some kind)
    (h : block.value.attribute? "kind" = some (.string (Vocabulary.spelling kind))) :
    block.kind κ = .ok kind := by
  rw [kind_eq_ok, Json.kindText?, h]
  exact ⟨_, rfl, hread⟩

/-- An attribute that is an object is a block. -/
theorem exists_block (block : Block) (attr : String) (inner : Json)
    (h : block.value.attribute? attr = some inner) (hshape : inner.shape = .object) :
    ∃ found : Block, found.value = inner ∧ block.requiredBlock attr = .ok found ∧
      block.optionalBlock attr = .ok (some found) := by
  cases inner with
  | object fields =>
    refine ⟨⟨fields, block.place.member attr⟩, rfl, ?_, ?_⟩
    · exact requiredBlock_eq_ok.2 ⟨h, rfl⟩
    · exact optionalBlock_eq_some.2 ⟨h, rfl⟩
  | _ => cases hshape

/-- Items that were written one by one are read one by one. -/
theorem exists_blocks {α : Type} (block : Block) (attr : String) (items : List α)
    {write : α → Json} {reader : Block → Except Error α}
    (h : block.value.attribute? attr = some (.array (items.map write)))
    (hitems : ∀ item ∈ items, ReadsAs reader (write item) item) :
    ∃ found : List Block, block.blocks attr = .ok found ∧ found.mapM reader = .ok items := by
  have hshapes : FailsOnly (fun _ ↦ False) (block.blocks attr) := by
    rw [blocks, get?_eq, h]
    refine .mapM fun item hitem ↦ ?_
    intro error herror
    obtain ⟨origin, horigin, hwrite⟩ := List.mem_map.1 (List.fst_mem_of_mem_zipIdx hitem)
    exact (ofJson_eq_error herror).1 (hwrite ▸ (hitems origin horigin).1)
  cases hblocks : block.blocks attr with
  | error error => exact (hshapes error hblocks).elim
  | ok found =>
    refine ⟨found, rfl, ?_⟩
    have hvalues := blocks_eq_ok hblocks
    rw [Json.elements, h] at hvalues
    clear h hshapes hblocks
    induction items generalizing found with
    | nil =>
      rw [List.map_eq_nil_iff.1 hvalues]
      rfl
    | cons item items ih =>
      rw [List.forall_mem_cons] at hitems
      obtain ⟨first, rest, rfl, hfirst, hrest⟩ := List.map_eq_cons_iff.1 hvalues
      rw [List.mapM_cons, hitems.1.2 first hfirst, ih hitems.2 rest hrest]
      rfl

end Block

open Block

theorem readLiteral_declaration (literal : Literal) :
    ReadsAs readLiteral literal.declaration literal := by
  refine ⟨rfl, fun block h ↦ ?_⟩
  have hkind : block.kind LiteralKind = .ok literal.kind :=
    kind_of_spelling (read?_spelling_literal _) (h ▸ rfl)
  have htext : block.requiredText "value" = .ok literal.text := requiredText_of_string (h ▸ rfl)
  rw [readLiteral, hkind, htext]
  cases literal <;> rfl

theorem readSelector_declaration (selector : Selector) :
    ReadsAs readSelector selector.declaration selector := by
  refine ⟨rfl, fun block h ↦ ?_⟩
  obtain ⟨base, member⟩ := selector
  have hbase : block.optionalText "from" = .ok base :=
    optionalText_of_string (by rw [h]; cases base <;> rfl)
  have hmember : block.requiredText "prop" = .ok member :=
    requiredText_of_string (by rw [h]; cases base <;> rfl)
  rw [readSelector, hbase, hmember]
  rfl

theorem readCall_payload (callee : Selector) (arguments : List Outline.Literal) :
    ReadsAs readCall (Expression.call callee arguments).payload (.call callee arguments) := by
  refine ⟨rfl, fun block h ↦ ?_⟩
  obtain ⟨inner, hinner, hfunc, -⟩ :=
    exists_block block "func" callee.declaration (h ▸ rfl) rfl
  obtain ⟨found, hfound, hliterals⟩ := exists_blocks block "args" arguments
    (h ▸ rfl) fun literal _ ↦ readLiteral_declaration literal
  rw [readCall, hfunc, ok_bind, (readSelector_declaration callee).2 inner hinner, ok_bind, hfound,
    ok_bind, hliterals]
  rfl

theorem payload_shape (expression : Expression) : expression.payload.shape = .object := by
  cases expression <;> rfl

theorem readPayload_payload (expression : Expression) :
    ReadsAs (readPayload · expression.kind) expression.payload expression := by
  refine ⟨payload_shape expression, fun block h ↦ ?_⟩
  cases expression with
  | call callee arguments => exact (readCall_payload callee arguments).2 block h
  | selector value =>
    exact map_eq_ok.2 ⟨value, (readSelector_declaration value).2 block h, rfl⟩
  | literal value => exact map_eq_ok.2 ⟨value, (readLiteral_declaration value).2 block h, rfl⟩
  | identifier name => exact map_eq_ok.2 ⟨name, requiredText_of_string (h ▸ rfl), rfl⟩

/-- The only payload is that of the expression's own kind. -/
theorem refuseStray_declaration (mode : Mode) {expression : Expression}
    (h : block.value = expression.declaration) :
    refuseStray mode block expression.kind = .ok () := by
  have hstray : strayPayload? block expression.kind = none := by
    rw [strayPayload?, List.find?_eq_none]
    intro other _
    rw [has_eq, h, Bool.not_eq_true]
    cases expression <;> cases other <;> rfl
  unfold refuseStray
  rw [hstray]
  cases mode <;> rfl

theorem readExpression_declaration (mode : Mode) (expression : Expression) :
    ReadsAs (readExpression mode) expression.declaration expression := by
  refine ⟨rfl, fun block h ↦ ?_⟩
  have hkind : block.kind ExpressionKind = .ok expression.kind :=
    kind_of_spelling (read?_spelling_expression _) (h ▸ rfl)
  have hattr : block.value.attribute? (Vocabulary.spelling expression.kind) =
      some expression.payload := by
    rw [h]
    cases expression <;> rfl
  obtain ⟨inner, hinner, hpayload, -⟩ := exists_block _ _ _ hattr (payload_shape expression)
  rw [readExpression, hkind, ok_bind, refuseStray_declaration mode h, ok_bind, hpayload, ok_bind]
  exact (readPayload_payload expression).2 inner hinner

theorem readStatement_declaration (mode : Mode) (statement : Statement) :
    ReadsAs (readStatement mode) statement.declaration statement := by
  cases statement with
  | expression value =>
    refine ⟨rfl, fun block h ↦ ?_⟩
    have hkind : block.kind StatementKind = .ok .expression :=
      kind_of_spelling (read?_spelling_statement _) (h ▸ rfl)
    have hresults : block.has "results" = false := by
      rw [has_eq, h]
      rfl
    obtain ⟨inner, hinner, hblock, -⟩ :=
      exists_block block "expression" value.declaration (h ▸ rfl) rfl
    rw [readStatement, hkind, ok_bind]
    dsimp only
    rw [readExpressionStatement, hresults, Bool.and_false, if_neg (by decide), hblock, ok_bind,
      (readExpression_declaration mode value).2 inner hinner]
    rfl
  | ret values =>
    refine ⟨rfl, fun block h ↦ ?_⟩
    have hkind : block.kind StatementKind = .ok .ret :=
      kind_of_spelling (read?_spelling_statement _) (h ▸ rfl)
    have habsent : block.value.attribute? "expression" = none := by
      rw [h]
      rfl
    obtain ⟨found, hfound, hvalues⟩ := exists_blocks block "results" values
      (h ▸ rfl) fun value _ ↦ readExpression_declaration mode value
    rw [readStatement, hkind, ok_bind]
    dsimp only
    rw [readReturn, has_eq, habsent, Option.isSome_none, Bool.false_and, if_neg (by decide),
      optionalBlock_eq_none.2 habsent, ok_bind]
    dsimp only
    rw [hfound, ok_bind, hvalues]
    rfl

theorem readField_declaration (field : Field) : ReadsAs readField field.declaration field := by
  refine ⟨rfl, fun block h ↦ ?_⟩
  obtain ⟨name, type⟩ := field
  have hname : block.optionalText "name" = .ok name :=
    optionalText_of_string (by rw [h]; cases name <;> cases type <;> rfl)
  have htype : block.optionalText "type" = .ok type :=
    optionalText_of_string (by rw [h]; cases name <;> cases type <;> rfl)
  rw [readField, hname, htype]
  rfl

theorem readFields_declaration {attr : String} {fields : List Field}
    (h : block.value.attribute? attr = some (.array (fields.map Field.declaration))) :
    readFields block attr = .ok fields := by
  obtain ⟨found, hfound, hfields⟩ :=
    exists_blocks _ _ _ h fun field _ ↦ readField_declaration field
  rw [readFields, hfound, ok_bind, hfields]

theorem readFunction_declaration (mode : Mode) (function : Function) :
    ReadsAs (readFunction mode) function.declaration function := by
  refine ⟨rfl, fun block h ↦ ?_⟩
  have hname : block.requiredText "name" = .ok function.name := requiredText_of_string (h ▸ rfl)
  obtain ⟨signature, hsignature, -, hsignatureBlock⟩ :=
    exists_block block "signature" function.signature (h ▸ rfl) rfl
  obtain ⟨body, hbody, -, hbodyBlock⟩ := exists_block block "body"
    (.object [("statements", .array (function.body.map Statement.declaration))]) (h ▸ rfl) rfl
  have hparams : readFields signature "params" = .ok function.params :=
    readFields_declaration (hsignature ▸ rfl)
  have hresults : readFields signature "results" = .ok function.results :=
    readFields_declaration (hsignature ▸ rfl)
  obtain ⟨found, hfound, hstatements⟩ := exists_blocks body "statements" function.body
    (hbody ▸ rfl) fun value _ ↦ readStatement_declaration mode value
  rw [readFunction, hname, ok_bind, hsignatureBlock, ok_bind, readSignature, hparams, ok_bind,
    hresults]
  simp only [ok_bind, pure_bind, hbodyBlock, readBody, hfound, hstatements]
  rfl

theorem readImport_declaration {spec : Import} (hnamed : spec.NamedOrBare) :
    ReadsAs readImport spec.declaration spec := by
  refine ⟨rfl, fun block h ↦ ?_⟩
  obtain ⟨localName, path⟩ := spec
  have hname : block.optionalText "name" = .ok localName :=
    optionalText_of_string (by rw [h]; cases localName <;> rfl)
  have hpath : block.requiredText "path" = .ok path :=
    requiredText_of_string (by rw [h]; cases localName <;> rfl)
  have hkept : localName.filter (· ≠ "") = localName := by
    cases localName with
    | none => rfl
    | some name =>
      have hname : name ≠ "" := fun hempty ↦ hnamed (congrArg some hempty)
      rw [Option.filter_some, if_pos (decide_eq_true hname)]
  rw [readImport, hname, ok_bind, hpath, ok_bind, hkept]
  rfl

/-- What was written is read back. -/
theorem read_declaration (mode : Mode) {outline : Outline.File}
    (hnamed : ∀ spec ∈ outline.imports, spec.NamedOrBare) :
    read mode outline.declaration = .ok outline := by
  obtain ⟨root, hroot, hread⟩ : ∃ root : Block, root.value = outline.declaration ∧
      Block.ofJson outline.declaration .root = .ok root := ⟨⟨_, .root⟩, rfl, rfl⟩
  have hpackage : root.requiredText "packageName" = .ok outline.package :=
    requiredText_of_string (hroot ▸ rfl)
  obtain ⟨specs, hspecs, himports⟩ := exists_blocks root "imports" outline.imports
    (hroot ▸ rfl) fun spec hspec ↦ readImport_declaration (hnamed spec hspec)
  obtain ⟨blocks, hblocks, hfunctions⟩ := exists_blocks root "functions" outline.functions
    (hroot ▸ rfl) fun function _ ↦ readFunction_declaration mode function
  rw [read, hread, ok_bind, hpackage, ok_bind, hspecs, ok_bind, himports, ok_bind, hblocks,
    ok_bind, hfunctions]
  rfl

theorem localName_of_readImport {spec : Import} (h : readImport block = .ok spec) :
    spec.NamedOrBare := by
  obtain ⟨localName, -, h⟩ := bind_eq_ok.1 h
  obtain ⟨path, -, h⟩ := bind_eq_ok.1 h
  cases h
  simp [Import.NamedOrBare, Option.filter_eq_some_iff]

theorem namedOrBare_of_read {mode : Mode} {declaration : Json} {outline : Outline.File}
    (h : read mode declaration = .ok outline) : ∀ spec ∈ outline.imports, spec.NamedOrBare := by
  obtain ⟨root, -, h⟩ := bind_eq_ok.1 h
  obtain ⟨package, -, h⟩ := bind_eq_ok.1 h
  obtain ⟨specs, -, h⟩ := bind_eq_ok.1 h
  obtain ⟨imports, himports, h⟩ := bind_eq_ok.1 h
  obtain ⟨blocks, -, h⟩ := bind_eq_ok.1 h
  obtain ⟨functions, -, h⟩ := bind_eq_ok.1 h
  cases h
  intro spec hspec
  obtain ⟨block, -, hread⟩ := exists_mem_of_mapM himports hspec
  exact localName_of_readImport hread

/-- The outlines that are read in either mode are those in which no local name is empty. Each is
read, in both modes alike, from the declaration that writes it. -/
theorem expressible_iff (outline : Outline.File) :
    ((∀ mode, read mode outline.declaration = .ok outline) ↔
        ∀ spec ∈ outline.imports, spec.NamedOrBare) ∧
      ∀ mode, (∃ declaration, read mode declaration = .ok outline) ↔
        ∀ spec ∈ outline.imports, spec.NamedOrBare := by
  constructor
  · constructor
    · intro hread
      exact namedOrBare_of_read (hread .strict)
    · intro hnamed mode
      exact read_declaration mode hnamed
  · intro mode
    constructor
    · rintro ⟨declaration, hread⟩
      exact namedOrBare_of_read hread
    · intro hnamed
      exact ⟨outline.declaration, read_declaration mode hnamed⟩

end Declaration

end DeclaredSource
