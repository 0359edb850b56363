import DeclaredSource.Generation
import DeclaredSource.Proofs.Declaration.Blame

/-!
# Strict and lenient reading

Strict reading goes through a declaration as lenient reading does and now and then refuses a block
that sets an attribute of another kind. So the two answers are equal unless the strict one is such a
refusal, and where lenient reading succeeds the strict one does exactly when no block that was read
is overfull.
-/

namespace DeclaredSource

open FirstFailure

namespace Json

def bodyStatements (function : Json) : List Json :=
  (function.attribute? "body").toList.flatMap (·.elements "statements")

/-- The statements of all functions of a declaration. -/
def statements (declaration : Json) : List Json :=
  (declaration.elements "functions").flatMap bodyStatements

/-- The expressions of a statement that are read for its kind. -/
def expressions (statement : Json) : List Json :=
  match statement.kindText? with
  | some "expression" => (statement.attribute? "expression").toList
  | some "return" =>
    (statement.attribute? "expression").toList ++ statement.elements "results"
  | _ => []

/-- An object that sets an attribute which does not belong to its kind. -/
def Overfull (value : Json) : Prop :=
  ∃ kind attr, value.kindText? = some kind ∧ Declaration.Foreign kind attr ∧
    (value.attribute? attr).isSome

/-- Neither the statement nor an expression that is read for it is overfull. -/
def TidyStatement (statement : Json) : Prop :=
  ¬ statement.Overfull ∧ ∀ expression ∈ statement.expressions, ¬ expression.Overfull

def Tidy (declaration : Json) : Prop :=
  ∀ statement ∈ declaration.statements, statement.TidyStatement

end Json

namespace Declaration

variable {α β : Type} {block : Block}

/-- The strict answer is the lenient one or a refusal. -/
def Agrees (strict lenient : Except Error α) : Prop :=
  strict = lenient ∨ ∃ e, strict = .error e ∧ e.IsRefusal

namespace Agrees

theorem refl (x : Except Error α) : Agrees x x :=
  .inl rfl

theorem bind {x y : Except Error α} {f g : α → Except Error β} (hxy : Agrees x y)
    (hfg : ∀ a, Agrees (f a) (g a)) : Agrees (x >>= f) (y >>= g) := by
  rcases hxy with rfl | ⟨e, rfl, he⟩
  · cases x with
    | error e => exact refl (.error e)
    | ok a => exact hfg a
  · exact .inr ⟨e, rfl, he⟩

theorem mapM {f g : α → Except Error β} (h : ∀ a, Agrees (f a) (g a)) (xs : List α) :
    Agrees (xs.mapM f) (xs.mapM g) := by
  induction xs with
  | nil => exact refl (.ok [])
  | cons x xs ih =>
    rw [List.mapM_cons, List.mapM_cons]
    exact bind (h x) fun y ↦ bind ih fun ys ↦ refl (.ok (y :: ys))

/-- What succeeds strictly succeeds leniently with the same result. -/
theorem eq_ok {x y : Except Error α} (h : Agrees x y) {a : α} (hx : x = .ok a) : y = .ok a := by
  rcases h with rfl | ⟨e, he, -⟩
  · exact hx
  · rw [he] at hx
    cases hx

end Agrees

theorem refuseStray_agrees (block : Block) (kind : ExpressionKind) :
    Agrees (refuseStray .strict block kind) (refuseStray .lenient block kind) := by
  cases hstray : strayPayload? block kind with
  | none => simp [Agrees, refuseStray, hstray]
  | some other => simp [Agrees, refuseStray, hstray, Error.IsRefusal]

theorem readExpression_agrees (block : Block) :
    Agrees (readExpression .strict block) (readExpression .lenient block) := by
  refine .bind (.refl _) fun kind ↦ ?_
  exact .bind (refuseStray_agrees block kind) fun _ ↦ .refl _

theorem readExpressionStatement_agrees (block : Block) :
    Agrees (readExpressionStatement .strict block) (readExpressionStatement .lenient block) := by
  cases hresults : block.has "results" with
  | true =>
    have hrefused : readExpressionStatement .strict block = .error (.unexpectedBlock block.place
        (Vocabulary.spelling StatementKind.expression) "results") := by
      simp [readExpressionStatement, hresults]
    exact .inr ⟨_, hrefused, trivial⟩
  | false =>
    simp only [readExpressionStatement, hresults, Bool.and_false, Bool.false_eq_true, if_false]
    refine .bind (.refl _) fun inner ↦ ?_
    exact .bind (readExpression_agrees inner) fun e ↦ .refl _

theorem readReturn_agrees (block : Block) :
    Agrees (readReturn .strict block) (readReturn .lenient block) := by
  unfold readReturn
  split
  · exact .refl _
  · refine .bind (.refl _) fun value ↦ ?_
    cases value with
    | some inner => exact .bind (readExpression_agrees inner) fun e ↦ .refl _
    | none =>
      refine .bind (.refl _) fun inner ↦ ?_
      exact .bind (.mapM readExpression_agrees inner) fun values ↦ .refl _

theorem readStatement_agrees (block : Block) :
    Agrees (readStatement .strict block) (readStatement .lenient block) := by
  refine .bind (.refl _) fun kind ↦ ?_
  cases kind with
  | expression => exact readExpressionStatement_agrees block
  | ret => exact readReturn_agrees block

theorem readBody_agrees (body : Option Block) :
    Agrees (readBody .strict body) (readBody .lenient body) := by
  cases body with
  | none => exact .refl _
  | some block => exact .bind (.refl _) fun statements ↦ .mapM readStatement_agrees statements

theorem readFunction_agrees (block : Block) :
    Agrees (readFunction .strict block) (readFunction .lenient block) := by
  refine .bind (.refl _) fun name ↦ .bind (.refl _) fun signature ↦ ?_
  refine .bind (.refl _) fun fields ↦ .bind (.refl _) fun body ↦ ?_
  exact .bind (readBody_agrees body) fun statements ↦ .refl _

theorem read_agrees (declaration : Json) :
    Agrees (read .strict declaration) (read .lenient declaration) := by
  refine .bind (.refl _) fun root ↦ .bind (.refl _) fun package ↦ .bind (.refl _) fun specs ↦ ?_
  refine .bind (.refl _) fun imports ↦ .bind (.refl _) fun blocks ↦ ?_
  exact .bind (.mapM readFunction_agrees blocks) fun functions ↦ .refl _

/-! ## Where lenient reading succeeds -/

theorem foreign_expression {kind : ExpressionKind} {attr : String} :
    Foreign (Vocabulary.spelling kind) attr ↔
      ∃ other, other ≠ kind ∧ attr = Vocabulary.spelling other := by
  constructor
  · generalize htext : Vocabulary.spelling kind = text
    rintro (⟨kind', other, hdifferent⟩ | _)
    · have hsame := congrArg (Vocabulary.read? (κ := ExpressionKind)) htext
      rw [read?_spelling_expression, read?_spelling_expression, Option.some.injEq] at hsame
      exact ⟨other, hsame ▸ hdifferent, rfl⟩
    · cases kind <;> simp [Vocabulary.spelling] at htext
  · rintro ⟨other, hdifferent, rfl⟩
    exact .payload kind other hdifferent

theorem foreign_statement {kind : StatementKind} {attr : String} :
    Foreign (Vocabulary.spelling kind) attr ↔ kind = .expression ∧ attr = "results" := by
  constructor
  · generalize htext : Vocabulary.spelling kind = text
    rintro (⟨kind', other, _⟩ | _)
    · cases kind <;> cases kind' <;> simp [Vocabulary.spelling] at htext
    · cases kind with
      | expression => exact ⟨rfl, rfl⟩
      | ret => simp [Vocabulary.spelling] at htext
  · rintro ⟨rfl, rfl⟩
    exact .results

theorem overfull_expression {kind : ExpressionKind} (h : block.kind ExpressionKind = .ok kind) :
    block.value.Overfull ↔ strayPayload? block kind ≠ none := by
  have hkind := Block.kindText?_of_kind h
  constructor
  · rintro ⟨text, attr, htext, hforeign, hset⟩
    obtain rfl : Vocabulary.spelling kind = text := by simpa [hkind] using htext
    obtain ⟨other, hdifferent, rfl⟩ := foreign_expression.1 hforeign
    intro hnone
    have hall := List.find?_eq_none.1 hnone other (by cases other <;> decide)
    simp [hdifferent, Block.has_eq, hset] at hall
  · intro hsome
    obtain ⟨other, hstray⟩ := Option.ne_none_iff_exists'.1 hsome
    obtain ⟨hdifferent, hset⟩ := strayPayload?_eq_some hstray
    exact ⟨_, _, hkind, .payload kind other hdifferent, hset⟩

theorem overfull_statement {kind : StatementKind} (h : block.kind StatementKind = .ok kind) :
    block.value.Overfull ↔ kind = .expression ∧ block.has "results" = true := by
  have hkind := Block.kindText?_of_kind h
  constructor
  · rintro ⟨text, attr, htext, hforeign, hset⟩
    obtain rfl : Vocabulary.spelling kind = text := by simpa [hkind] using htext
    obtain ⟨rfl, rfl⟩ := foreign_statement.1 hforeign
    exact ⟨rfl, hset⟩
  · rintro ⟨rfl, hset⟩
    exact ⟨_, _, hkind, .results, hset⟩

theorem readExpression_strict {expression : Outline.Expression}
    (h : readExpression .lenient block = .ok expression) :
    readExpression .strict block = .ok expression ↔ ¬ block.value.Overfull := by
  obtain ⟨kind, hkind, hread⟩ := bind_eq_ok.1 h
  rw [overfull_expression hkind, not_not]
  have hstrict : readExpression .strict block = refuseStray .strict block kind >>= fun _ ↦
      block.requiredBlock (Vocabulary.spelling kind) >>= (readPayload · kind) := by
    rw [readExpression, hkind]
    rfl
  rw [hstrict]
  cases hstray : strayPayload? block kind with
  | none =>
    simp only [refuseStray, hstray, iff_true]
    simpa [refuseStray] using hread
  | some other =>
    simp [refuseStray, hstray, bind, Except.bind]

theorem elements_eq_nil {value : Json} {attr : String} (h : value.attribute? attr = none) :
    value.elements attr = [] := by
  rw [Json.elements, h]

theorem readExpressionStatement_strict {statement : Outline.Statement}
    (hkind : block.kind StatementKind = .ok .expression)
    (h : readExpressionStatement .lenient block = .ok statement) :
    readExpressionStatement .strict block = .ok statement ↔
      block.value.TidyStatement := by
  obtain ⟨inner, hinner, hread⟩ := bind_eq_ok.1 h
  obtain ⟨expression, hexpression, hstatement⟩ := bind_eq_ok.1 hread
  have hvalue := (Block.requiredBlock_eq_ok.1 hinner).1
  have hexpressions : block.value.expressions = [inner.value] := by
    rw [Json.expressions, Block.kindText?_of_kind hkind, hvalue]
    rfl
  rw [Json.TidyStatement, overfull_statement hkind, hexpressions, List.forall_mem_singleton,
    ← readExpression_strict hexpression]
  cases hresults : block.has "results" with
  | true => simp [readExpressionStatement, hresults]
  | false =>
    have hstrict : readExpressionStatement .strict block =
        readExpression .strict inner >>= fun e ↦ .ok (.expression e) := by
      simp only [readExpressionStatement, hresults, Bool.and_false, Bool.false_eq_true, if_false,
        hinner]
      rfl
    cases hstatement
    simp [hstrict, bind_eq_ok]

theorem readReturn_strict {statement : Outline.Statement}
    (hkind : block.kind StatementKind = .ok .ret)
    (h : readReturn .lenient block = .ok statement) :
    readReturn .strict block = .ok statement ↔
      block.value.TidyStatement := by
  have hexpressions : block.value.expressions =
      (block.value.attribute? "expression").toList ++ block.value.elements "results" := by
    rw [Json.expressions, Block.kindText?_of_kind hkind]
    rfl
  have hnot : ¬ block.value.Overfull := by simp [overfull_statement hkind]
  unfold readReturn at h ⊢
  split at h
  · cases h
  next hboth =>
  rw [if_neg hboth]
  obtain ⟨value, hvalue, hread⟩ := bind_eq_ok.1 h
  cases value with
  | some inner =>
    obtain ⟨expression, hexpression, hstatement⟩ := bind_eq_ok.1 hread
    have hinner := (Block.optionalBlock_eq_some.1 hvalue).1
    have hresults : block.value.attribute? "results" = none := by
      simpa [Block.has_eq, hinner] using hboth
    cases hstatement
    rw [Json.TidyStatement, hexpressions, hinner, elements_eq_nil hresults, Option.toList_some,
      List.append_nil, List.forall_mem_singleton, ← readExpression_strict hexpression, hvalue]
    simp [hnot, bind_eq_ok, map_eq_ok]
  | none =>
    obtain ⟨inner, hinner, hread⟩ := bind_eq_ok.1 hread
    obtain ⟨values, hvalues, hstatement⟩ := bind_eq_ok.1 hread
    have habsent := Block.optionalBlock_eq_none.1 hvalue
    cases hstatement
    rw [Json.TidyStatement, hexpressions, habsent, Option.toList_none, List.nil_append,
      ← Block.blocks_eq_ok hinner, List.forall_mem_map, hvalue,
      ← mapM_eq_ok_iff_of_mapM hvalues fun b _ e he ↦ readExpression_strict he]
    simp [hnot, bind_eq_ok, map_eq_ok, hinner]

theorem readStatement_strict {statement : Outline.Statement}
    (h : readStatement .lenient block = .ok statement) :
    readStatement .strict block = .ok statement ↔
      block.value.TidyStatement := by
  obtain ⟨kind, hkind, hread⟩ := bind_eq_ok.1 h
  rw [readStatement, hkind]
  cases kind with
  | expression => exact readExpressionStatement_strict hkind hread
  | ret => exact readReturn_strict hkind hread

theorem readBody_strict {body : Option Block} {statements : List Outline.Statement}
    (h : readBody .lenient body = .ok statements) :
    readBody .strict body = .ok statements ↔
      ∀ inner, body = some inner → ∀ s ∈ inner.value.elements "statements", s.TidyStatement := by
  cases body with
  | none =>
    cases h
    simp [readBody]
  | some inner =>
    obtain ⟨blocks, hblocks, hread⟩ := bind_eq_ok.1 h
    have hstrict := mapM_eq_ok_iff_of_mapM hread fun b _ s hs ↦ readStatement_strict hs
    simp only [Option.some.injEq, forall_eq', ← Block.blocks_eq_ok hblocks, List.forall_mem_map,
      ← hstrict]
    simp [readBody, hblocks, bind_eq_ok]

theorem bodyStatements_of_optionalBlock {body : Option Block}
    (h : block.optionalBlock "body" = .ok body) (P : Json → Prop) :
    (∀ s ∈ block.value.bodyStatements, P s) ↔
      ∀ inner, body = some inner → ∀ s ∈ inner.value.elements "statements", P s := by
  cases body with
  | none => simp [Json.bodyStatements, Block.optionalBlock_eq_none.1 h]
  | some inner => simp [Json.bodyStatements, (Block.optionalBlock_eq_some.1 h).1]

theorem readFunction_strict {function : Outline.Function}
    (h : readFunction .lenient block = .ok function) :
    readFunction .strict block = .ok function ↔
      ∀ s ∈ block.value.bodyStatements, s.TidyStatement := by
  obtain ⟨name, hname, h⟩ := bind_eq_ok.1 h
  obtain ⟨signature, hsignature, h⟩ := bind_eq_ok.1 h
  obtain ⟨fields, hfields, h⟩ := bind_eq_ok.1 h
  obtain ⟨body, hbody, h⟩ := bind_eq_ok.1 h
  obtain ⟨statements, hstatements, h⟩ := bind_eq_ok.1 h
  cases h
  rw [bodyStatements_of_optionalBlock hbody, ← readBody_strict hstatements]
  simp [readFunction, hname, hsignature, hfields, hbody, bind_eq_ok, map_eq_ok]

theorem read_strict {declaration : Json} {outline : Outline.File}
    (h : read .lenient declaration = .ok outline) :
    read .strict declaration = .ok outline ↔ declaration.Tidy := by
  obtain ⟨root, hroot, h⟩ := bind_eq_ok.1 h
  obtain ⟨package, hpackage, h⟩ := bind_eq_ok.1 h
  obtain ⟨specs, hspecs, h⟩ := bind_eq_ok.1 h
  obtain ⟨imports, himports, h⟩ := bind_eq_ok.1 h
  obtain ⟨blocks, hblocks, h⟩ := bind_eq_ok.1 h
  obtain ⟨functions, hfunctions, h⟩ := bind_eq_ok.1 h
  cases h
  obtain ⟨rfl, -⟩ := Block.ofJson_eq_ok.1 hroot
  have htidy : root.value.Tidy ↔ ∀ b ∈ blocks, ∀ s ∈ b.value.bodyStatements, s.TidyStatement := by
    rw [Json.Tidy, Json.statements, ← Block.blocks_eq_ok hblocks, List.forall_mem_flatMap,
      List.forall_mem_map]
  rw [htidy, ← mapM_eq_ok_iff_of_mapM hfunctions fun b _ f hf ↦ readFunction_strict hf]
  simp [read, hroot, hpackage, hspecs, himports, hblocks, bind_eq_ok, map_eq_ok]

theorem generate_eq_ok {mode : Mode} {declaration : Json} {text : String} :
    Generation.generate mode declaration = .ok text ↔
      ∃ outline, read mode declaration = .ok outline ∧ Rendering.text outline = .ok text := by
  simp only [Generation.generate, bind_eq_ok]
  refine exists_congr fun outline ↦ ?_
  cases read mode declaration <;> cases Rendering.text outline <;> simp [Except.mapError]

/-- The strict answer is the lenient one or a refusal, lenient reading never refuses, and where it
succeeds strict reading succeeds for tidy declarations only. So whatever text is generated strictly
is generated leniently as well. -/
theorem strict_adds_refusals_only (declaration : Json) :
    (read .strict declaration = read .lenient declaration ∨
      ∃ node kind block, read .strict declaration = .error (.unexpectedBlock node kind block)) ∧
    (∀ node kind block, read .lenient declaration ≠ .error (.unexpectedBlock node kind block)) ∧
    (∀ outline, read .lenient declaration = .ok outline →
      ((∃ strictly, read .strict declaration = .ok strictly) ↔ declaration.Tidy)) ∧
    (∀ text, Generation.generate .strict declaration = .ok text →
      Generation.generate .lenient declaration = .ok text) := by
  have hagrees := read_agrees declaration
  refine ⟨?_, ?_, ?_, ?_⟩
  · rcases hagrees with heq | ⟨e, he, hrefusal⟩
    · exact .inl heq
    · cases e with
      | unexpectedBlock node kind block => exact .inr ⟨node, kind, block, he⟩
      | _ => exact hrefusal.elim
  · intro node kind block h
    have hmode := (read_justified .lenient declaration _ h).strictly trivial
    cases hmode
  · intro outline h
    rw [← read_strict h]
    refine ⟨fun ⟨strictly, hstrictly⟩ ↦ ?_, fun hstrict ↦ ⟨outline, hstrict⟩⟩
    have hsame : Except.ok outline = .ok strictly := h.symm.trans (hagrees.eq_ok hstrictly)
    rw [hstrictly, ← hsame]
  · intro text h
    obtain ⟨outline, hread, htext⟩ := generate_eq_ok.1 h
    exact generate_eq_ok.2 ⟨outline, hagrees.eq_ok hread, htext⟩

/-- The second value of a return sets a payload of another kind: lenient reading passes over it and
strict reading does not. Without that payload both generate the same text. -/
theorem strict_refuses_stray_payload :
    let value : Json := .object
      [("kind", .string "identifier"), ("identifier", .object [("name", .string "x")])]
    let crowded : Json := .object [("kind", .string "identifier"),
      ("identifier", .object [("name", .string "x")]), ("call", .bool false)]
    let declaration (second : Json) : Json := .object [("packageName", .string "main"),
      ("functions", .array [.object [("name", .string "f"), ("body", .object [("statements",
        .array [.object [("kind", .string "return"), ("results", .array [value, second])]])])]])]
    let values := [Outline.Expression.identifier "x", .identifier "x"]
    let outline : Outline.File := ⟨"main", [], [⟨"f", [], [], [.ret values]⟩]⟩
    let text := "package main\n\nfunc f() \x7b\n\treturn x, x\n\x7d\n"
    (read .lenient (declaration crowded) = .ok outline ∧ ¬ (declaration crowded).Tidy) ∧
      Generation.generate .strict (declaration value) = .ok text ∧
      Generation.generate .lenient (declaration value) = .ok text := by
  intro value crowded declaration values outline text
  have hlenient : read .lenient (declaration crowded) = .ok outline := rfl
  have hstrict : ∀ strictly, read .strict (declaration crowded) ≠ .ok strictly := nofun
  have htext : Generation.generate .strict (declaration value) = .ok text := rfl
  obtain ⟨-, -, htidy, -⟩ := strict_adds_refusals_only (declaration crowded)
  obtain ⟨-, -, -, hgenerate⟩ := strict_adds_refusals_only (declaration value)
  refine ⟨⟨hlenient, fun h ↦ ?_⟩, htext, hgenerate text htext⟩
  obtain ⟨strictly, hread⟩ := (htidy outline hlenient).2 h
  exact hstrict strictly hread

end Declaration

end DeclaredSource
