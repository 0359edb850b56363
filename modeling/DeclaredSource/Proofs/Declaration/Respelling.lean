import DeclaredSource.Proofs.Declaration.Attributes
import Mathlib.Data.Option.Basic

/-!
# Numbers and booleans as text

A declaration may spell a number or a boolean as a string that holds its text. Nothing that is read
out of a block depends on which of the two it is, so both declarations are read alike, down to the
nodes and attributes that errors name. One thing gives the spelling away: an error about a value
that had to be a block or a list says what was found there.
-/

namespace DeclaredSource

open FirstFailure

namespace Json

/-- The second value is the first one with some of its numbers and booleans, at any depth, replaced
by strings that hold their text. -/
inductive Respells : Json → Json → Prop
  | same (value : Json) : Respells value value
  | scalar {value : Json} {text : String} (holds : value.scalarText? = some text) :
    Respells value (.string text)
  | array {items items' : List Json} (each : List.Forall₂ Respells items items') :
    Respells (.array items) (.array items')
  | object {fields fields' : List (String × Json)}
    (names : fields.map Prod.fst = fields'.map Prod.fst)
    (values : List.Forall₂ Respells (fields.map Prod.snd) (fields'.map Prod.snd)) :
    Respells (.object fields) (.object fields')

/-- What a value and its respelling look like. -/
def Shape.Respells (shape shape' : Shape) : Prop :=
  shape = shape' ∨ (shape = .number ∨ shape = .boolean) ∧ shape' = .string

namespace Respells

variable {value value' : Json}

theorem scalarText? (h : value.Respells value') : value'.scalarText? = value.scalarText? := by
  cases h with
  | scalar holds => exact holds.symm
  | _ => rfl

theorem isNull (h : value.Respells value') : value'.isNull = value.isNull := by
  cases h with
  | scalar holds =>
    cases value with
    | null => cases holds
    | _ => rfl
  | _ => rfl

theorem shape (h : value.Respells value') : value.shape.Respells value'.shape := by
  cases h with
  | scalar holds =>
    cases value with
    | number n => exact .inr ⟨.inl rfl, rfl⟩
    | bool b => exact .inr ⟨.inr rfl, rfl⟩
    | string text' => exact .inl rfl
    | _ => cases holds
  | _ => exact .inl rfl

theorem shape_eq (h : value.Respells value') (hcomposite : value.scalarText? = none) :
    value'.shape = value.shape := by
  cases h with
  | scalar holds => cases hcomposite.symm.trans holds
  | _ => rfl

theorem filter_isNull {found found' : Option Json} (h : Option.Rel Respells found found') :
    Option.Rel Respells (found.filter (!·.isNull)) (found'.filter (!·.isNull)) := by
  cases h with
  | none => exact .none
  | some hvalue =>
    rw [Option.filter_some, Option.filter_some, hvalue.isNull]
    split
    · exact .some hvalue
    · exact .none

theorem lookup {fields fields' : List (String × Json)}
    (hnames : fields.map Prod.fst = fields'.map Prod.fst)
    (hvalues : List.Forall₂ Respells (fields.map Prod.snd) (fields'.map Prod.snd))
    (attr : String) : Option.Rel Respells (fields.lookup attr) (fields'.lookup attr) := by
  induction fields generalizing fields' with
  | nil =>
    cases fields' with
    | nil => exact .none
    | cons field' rest' => cases hnames
  | cons field rest ih =>
    cases fields' with
    | nil => cases hnames
    | cons field' rest' =>
      obtain ⟨name, value⟩ := field
      obtain ⟨name', value'⟩ := field'
      obtain ⟨rfl, hrest⟩ := List.cons.inj hnames
      obtain ⟨hvalue, hvalues⟩ := List.forall₂_cons.1 hvalues
      rw [List.lookup_cons, List.lookup_cons]
      cases attr == name with
      | true => exact .some hvalue
      | false => exact ih hrest hvalues

theorem attribute? (h : value.Respells value') (attr : String) :
    Option.Rel Respells (value.attribute? attr) (value'.attribute? attr) := by
  cases h with
  | same =>
    cases value.attribute? attr with
    | none => exact .none
    | some inner => exact .some (.same inner)
  | scalar holds =>
    cases value with
    | object fields => cases holds
    | _ => exact .none
  | array each => exact .none
  | object names values => exact filter_isNull (lookup names values attr)

end Respells

end Json

namespace Declaration

/-- The errors differ at most in the sort of value that was found where a block or a list had to
be. -/
inductive Error.Resembles : Error → Error → Prop
  | same (error : Error) : Resembles error error
  | found (node : Place) (expected : Json.Shape) {shape shape' : Json.Shape}
    (respelled : shape.Respells shape') :
    Resembles (.typeMismatch node expected shape) (.typeMismatch node expected shape')

/-- Both readings give the same, or fail with errors that resemble each other. -/
abbrev ReadAlike {α : Type} : Except Error α → Except Error α → Prop :=
  Parallel Error.Resembles (· = ·)

namespace ReadAlike

variable {α β : Type} {x y : Except Error α}

theorem of_eq (h : y = x) : ReadAlike x y :=
  h ▸ Parallel.refl Error.Resembles.same (fun _ ↦ rfl) x

theorem bind {f g : α → Except Error β} (h : ReadAlike x y)
    (hfg : ∀ a, ReadAlike (f a) (g a)) : ReadAlike (x >>= f) (y >>= g) :=
  Parallel.bind h fun a _ hab ↦ hab ▸ hfg a

theorem map (f : α → β) (h : ReadAlike x y) : ReadAlike (f <$> x) (f <$> y) :=
  Parallel.map h fun _ _ hab ↦ congrArg f hab

end ReadAlike

namespace Block

/-- Blocks at one place, one of which respells the other. -/
structure Respells (block block' : Block) : Prop where
  place : block'.place = block.place
  value : block.value.Respells block'.value

variable {block block' : Block} {attr : String}

/-- An attribute is set in both blocks or in neither. -/
theorem Respells.get?_cases (h : block.Respells block') (attr : String) :
    block.get? attr = none ∧ block'.get? attr = none ∨
      ∃ value value', block.get? attr = some value ∧ block'.get? attr = some value' ∧
        value.Respells value' := by
  have hattr := h.value.attribute? attr
  rw [← get?_eq, ← get?_eq] at hattr
  generalize block.get? attr = found, block'.get? attr = found' at hattr ⊢
  cases hattr with
  | none => exact .inl ⟨rfl, rfl⟩
  | some hvalue => exact .inr ⟨_, _, rfl, rfl, hvalue⟩

theorem Respells.has (h : block.Respells block') (attr : String) :
    block'.has attr = block.has attr := by
  rw [Block.has, Block.has]
  obtain ⟨hnone, hnone'⟩ | ⟨value, value', hsome, hsome', -⟩ := h.get?_cases attr
  · rw [hnone, hnone']
  · rw [hsome, hsome']
    rfl

theorem textOf_respelled {value value' : Json} (h : value.Respells value') (place : Place) :
    textOf value' place = textOf value place := by
  rw [textOf, textOf, h.scalarText?]
  cases htext : value.scalarText? with
  | none => rw [h.shape_eq htext]
  | some text => rfl

theorem Respells.requiredText (h : block.Respells block') (attr : String) :
    block'.requiredText attr = block.requiredText attr := by
  rw [Block.requiredText, Block.requiredText, h.place]
  obtain ⟨hnone, hnone'⟩ | ⟨value, value', hsome, hsome', hvalue⟩ := h.get?_cases attr
  · rw [hnone, hnone']
  · rw [hsome, hsome']
    exact textOf_respelled hvalue _

theorem Respells.optionalText (h : block.Respells block') (attr : String) :
    block'.optionalText attr = block.optionalText attr := by
  rw [Block.optionalText, Block.optionalText, h.place]
  obtain ⟨hnone, hnone'⟩ | ⟨value, value', hsome, hsome', hvalue⟩ := h.get?_cases attr
  · rw [hnone, hnone']
  · rw [hsome, hsome']
    exact congrArg (some <$> ·) (textOf_respelled hvalue _)

theorem Respells.kind {κ : Type} [Vocabulary κ] (h : block.Respells block') :
    block'.kind κ = block.kind κ := by
  rw [Block.kind, Block.kind, h.requiredText, h.place]

theorem ofJson_respelled {value value' : Json} (h : value.Respells value') (place : Place) :
    Parallel Error.Resembles Respells (ofJson value place) (ofJson value' place) := by
  cases h with
  | same => exact .refl .same (fun block ↦ ⟨rfl, .same block.value⟩) _
  | scalar holds =>
    have hshape := (Json.Respells.scalar holds).shape
    cases value with
    | object fields => cases holds
    | _ => exact .error (.found place .object hshape)
  | array each => exact .error (.same _)
  | object names values => exact .ok ⟨rfl, .object names values⟩

theorem Respells.requiredBlock (h : block.Respells block') (attr : String) :
    Parallel Error.Resembles Respells (block.requiredBlock attr) (block'.requiredBlock attr) := by
  rw [Block.requiredBlock, Block.requiredBlock, h.place]
  obtain ⟨hnone, hnone'⟩ | ⟨value, value', hsome, hsome', hvalue⟩ := h.get?_cases attr
  · rw [hnone, hnone']
    exact .error (.same _)
  · rw [hsome, hsome']
    exact ofJson_respelled hvalue _

theorem Respells.optionalBlock (h : block.Respells block') (attr : String) :
    Parallel Error.Resembles (Option.Rel Respells) (block.optionalBlock attr)
      (block'.optionalBlock attr) := by
  rw [Block.optionalBlock, Block.optionalBlock, h.place]
  obtain ⟨hnone, hnone'⟩ | ⟨value, value', hsome, hsome', hvalue⟩ := h.get?_cases attr
  · rw [hnone, hnone']
    exact .ok .none
  · rw [hsome, hsome']
    exact (ofJson_respelled hvalue _).map fun _ _ ↦ .some

theorem forall₂_zipIdx {items items' : List Json}
    (h : List.Forall₂ Json.Respells items items') (index : Nat) :
    List.Forall₂ (fun item item' ↦ item.1.Respells item'.1 ∧ item'.2 = item.2)
      (items.zipIdx index) (items'.zipIdx index) := by
  induction h generalizing index with
  | nil => exact .nil
  | cons hitem _ ih => exact .cons ⟨hitem, rfl⟩ (ih (index + 1))

theorem mapM_ofJson_respelled {items items' : List Json}
    (h : List.Forall₂ Json.Respells items items') (place : Place) :
    Parallel Error.Resembles (List.Forall₂ Respells)
      (items.zipIdx.mapM fun (item, index) ↦ ofJson item (place.item index))
      (items'.zipIdx.mapM fun (item, index) ↦ ofJson item (place.item index)) := by
  refine Parallel.mapM (forall₂_zipIdx h 0) ?_
  rintro ⟨item, index⟩ ⟨item', _⟩ ⟨hitem, rfl⟩
  exact ofJson_respelled hitem _

/-- What is given for a list is a list in both blocks or in neither. -/
theorem Respells.blocks (h : block.Respells block') (attr : String) :
    Parallel Error.Resembles (List.Forall₂ Respells) (block.blocks attr)
      (block'.blocks attr) := by
  rw [Block.blocks, Block.blocks, h.place]
  obtain ⟨hnone, hnone'⟩ | ⟨value, value', hsome, hsome', hvalue⟩ := h.get?_cases attr
  · rw [hnone, hnone']
    exact .ok .nil
  · rw [hsome, hsome']
    cases hvalue with
    | same =>
      cases value with
      | array items =>
        exact mapM_ofJson_respelled (List.forall₂_same.2 fun item _ ↦ .same item) _
      | _ => exact .error (.same _)
    | scalar holds =>
      have hshape := (Json.Respells.scalar holds).shape
      cases value with
      | array items => cases holds
      | _ => exact .error (.found _ .array hshape)
    | array each => exact mapM_ofJson_respelled each _
    | object => exact .error (.same _)

end Block

/-! ## Readers -/

variable {mode : Mode} {block block' : Block}

theorem mapM_respelled {α : Type} {reader : Block → Except Error α} {blocks blocks' : List Block}
    (h : List.Forall₂ Block.Respells blocks blocks')
    (hreader : ∀ block block', block.Respells block' → ReadAlike (reader block) (reader block')) :
    ReadAlike (blocks.mapM reader) (blocks'.mapM reader) := by
  have hread := Parallel.mapM h hreader
  rwa [List.forall₂_eq_eq_eq] at hread

theorem readLiteral_respelled (h : block.Respells block') :
    readLiteral block' = readLiteral block := by
  rw [readLiteral, readLiteral, h.kind, h.requiredText]

theorem readSelector_respelled (h : block.Respells block') :
    readSelector block' = readSelector block := by
  rw [readSelector, readSelector, h.optionalText, h.requiredText]

theorem readField_respelled (h : block.Respells block') :
    readField block' = readField block := by
  rw [readField, readField, h.optionalText, h.optionalText]

theorem readImport_respelled (h : block.Respells block') :
    readImport block' = readImport block := by
  rw [readImport, readImport, h.optionalText, h.requiredText]

theorem readCall_respelled (h : block.Respells block') :
    ReadAlike (readCall block) (readCall block') := by
  rw [readCall, readCall]
  refine (h.requiredBlock "func").bind fun func func' hfunc ↦ ?_
  refine (ReadAlike.of_eq (readSelector_respelled hfunc)).bind fun callee ↦ ?_
  refine (h.blocks "args").bind fun args args' hargs ↦ ?_
  have hread : ReadAlike (args.mapM readLiteral) (args'.mapM readLiteral) :=
    mapM_respelled hargs fun _ _ harg ↦ .of_eq (readLiteral_respelled harg)
  exact hread.bind fun arguments ↦ .of_eq rfl

theorem readPayload_respelled (kind : ExpressionKind) (h : block.Respells block') :
    ReadAlike (readPayload block kind) (readPayload block' kind) := by
  cases kind with
  | call => exact readCall_respelled h
  | selector => exact (ReadAlike.of_eq (readSelector_respelled h)).map _
  | identifier => exact (ReadAlike.of_eq (h.requiredText "name")).map _
  | literal => exact (ReadAlike.of_eq (readLiteral_respelled h)).map _

theorem refuseStray_respelled (kind : ExpressionKind) (h : block.Respells block') :
    refuseStray mode block' kind = refuseStray mode block kind := by
  simp only [refuseStray, strayPayload?, h.has, h.place]

theorem readExpression_respelled (h : block.Respells block') :
    ReadAlike (readExpression mode block) (readExpression mode block') := by
  rw [readExpression, readExpression]
  refine (ReadAlike.of_eq h.kind).bind fun kind ↦ ?_
  refine (ReadAlike.of_eq (refuseStray_respelled kind h)).bind fun _ ↦ ?_
  exact (h.requiredBlock _).bind fun _ _ ↦ readPayload_respelled kind

theorem readExpressionStatement_respelled (h : block.Respells block') :
    ReadAlike (readExpressionStatement mode block) (readExpressionStatement mode block') := by
  rw [readExpressionStatement, readExpressionStatement, h.has, h.place]
  split
  · exact .of_eq rfl
  · refine (h.requiredBlock "expression").bind fun value value' hvalue ↦ ?_
    exact (readExpression_respelled hvalue).bind fun expression ↦ .of_eq rfl

theorem readReturn_respelled (h : block.Respells block') :
    ReadAlike (readReturn mode block) (readReturn mode block') := by
  rw [readReturn, readReturn, h.has, h.has, h.place]
  split
  · exact .of_eq rfl
  · refine (h.optionalBlock "expression").bind fun value value' hvalue ↦ ?_
    cases hvalue with
    | some hvalue => exact (readExpression_respelled hvalue).bind fun expression ↦ .of_eq rfl
    | none =>
      refine (h.blocks "results").bind fun results results' hresults ↦ ?_
      have hread : ReadAlike (results.mapM (readExpression mode))
          (results'.mapM (readExpression mode)) :=
        mapM_respelled hresults fun _ _ ↦ readExpression_respelled
      exact hread.bind fun expressions ↦ .of_eq rfl

theorem readStatement_respelled (h : block.Respells block') :
    ReadAlike (readStatement mode block) (readStatement mode block') := by
  rw [readStatement, readStatement]
  refine (ReadAlike.of_eq h.kind).bind fun kind ↦ ?_
  cases kind with
  | expression => exact readExpressionStatement_respelled h
  | ret => exact readReturn_respelled h

theorem readFields_respelled (h : block.Respells block') (attr : String) :
    ReadAlike (readFields block attr) (readFields block' attr) := by
  rw [readFields, readFields]
  refine (h.blocks attr).bind fun fields fields' hfields ↦ ?_
  exact mapM_respelled hfields fun _ _ hfield ↦ .of_eq (readField_respelled hfield)

theorem readSignature_respelled {signature signature' : Option Block}
    (h : Option.Rel Block.Respells signature signature') :
    ReadAlike (readSignature signature) (readSignature signature') := by
  cases h with
  | none => exact .of_eq rfl
  | some hsignature =>
    rw [readSignature, readSignature]
    refine (readFields_respelled hsignature "params").bind fun params ↦ ?_
    exact (readFields_respelled hsignature "results").bind fun results ↦ .of_eq rfl

theorem readBody_respelled {body body' : Option Block}
    (h : Option.Rel Block.Respells body body') :
    ReadAlike (readBody mode body) (readBody mode body') := by
  cases h with
  | none => exact .of_eq rfl
  | some hbody =>
    rw [readBody, readBody]
    refine (hbody.blocks "statements").bind fun statements statements' hstatements ↦ ?_
    exact mapM_respelled hstatements fun _ _ ↦ readStatement_respelled

theorem readFunction_respelled (h : block.Respells block') :
    ReadAlike (readFunction mode block) (readFunction mode block') := by
  rw [readFunction, readFunction]
  refine (ReadAlike.of_eq (h.requiredText "name")).bind fun name ↦ ?_
  refine (h.optionalBlock "signature").bind fun signature signature' hsignature ↦ ?_
  refine (readSignature_respelled hsignature).bind fun fields ↦ ?_
  refine (h.optionalBlock "body").bind fun body body' hbody ↦ ?_
  exact (readBody_respelled hbody).bind fun statements ↦ .of_eq rfl

theorem read_respelled {declaration respelled : Json} (h : declaration.Respells respelled) :
    ReadAlike (read mode declaration) (read mode respelled) := by
  rw [read, read]
  refine (Block.ofJson_respelled h .root).bind fun root root' hroot ↦ ?_
  refine (ReadAlike.of_eq (hroot.requiredText "packageName")).bind fun package ↦ ?_
  refine (hroot.blocks "imports").bind fun imports imports' himports ↦ ?_
  have hreadImports : ReadAlike (imports.mapM readImport) (imports'.mapM readImport) :=
    mapM_respelled himports fun _ _ himport ↦ .of_eq (readImport_respelled himport)
  refine hreadImports.bind fun imports ↦ ?_
  refine (hroot.blocks "functions").bind fun functions functions' hfunctions ↦ ?_
  have hreadFunctions : ReadAlike (functions.mapM (readFunction mode))
      (functions'.mapM (readFunction mode)) :=
    mapM_respelled hfunctions fun _ _ ↦ readFunction_respelled
  exact hreadFunctions.bind fun functions ↦ .of_eq rfl

/-- A declaration and one that spells numbers and booleans of it as strings have the same outline,
if they have one. If not, they fail with the same error, but for the sort of value that was found in
place of a block or a list. -/
theorem read_same_of_respells (mode : Mode) {declaration respelled : Json}
    (h : declaration.Respells respelled) :
    (∀ outline, read mode declaration = .ok outline ↔ read mode respelled = .ok outline) ∧
      ∀ error, read mode declaration = .error error →
        ∃ error', read mode respelled = .error error' ∧ error.Resembles error' := by
  have hread : ReadAlike (read mode declaration) (read mode respelled) := read_respelled h
  exact ⟨hread.ok_iff, fun error ↦ hread.error_of_error⟩

/-- A package and an alias that are spelled as a number and a boolean, and a number in place of the
functions. -/
theorem read_same_of_numerals :
    let declaration (package localName functions : Json) : Json := .object
      [("packageName", package),
        ("imports", .array [.object [("path", .string "fmt"), ("name", localName)]]),
        ("functions", functions)]
    let plain := declaration (.number (.integer 7)) (.bool true)
    let spelled := declaration (.string "7") (.string "true")
    let misplaced : Error := .typeMismatch (Place.root.member "functions") .array .number
    (plain (.array [])).Respells (spelled (.array [])) ∧
      read .strict (spelled (.array [])) = .ok ⟨"7", [⟨some "true", "fmt"⟩], []⟩ ∧
      read .strict (plain (.number (.integer 7))) = .error misplaced ∧
      ∃ error', read .strict (spelled (.string "7")) = .error error' ∧
        misplaced.Resembles error' := by
  intro declaration plain spelled misplaced
  have hseven : Json.scalarText? (.number (.integer 7)) = some "7" := by decide
  have himports : Json.Respells
      (.array [.object [("path", .string "fmt"), ("name", .bool true)]])
      (.array [.object [("path", .string "fmt"), ("name", .string "true")]]) := by
    refine .array (.cons (.object rfl ?_) .nil)
    exact .cons (.same _) (.cons (.scalar rfl) .nil)
  have hrespells {functions functions' : Json} (h : functions.Respells functions') :
      (plain functions).Respells (spelled functions') :=
    .object rfl (.cons (.scalar hseven) (.cons himports (.cons h .nil)))
  have hnone := hrespells (.same (.array []))
  have hread : read .strict (plain (.array [])) = .ok ⟨"7", [⟨some "true", "fmt"⟩], []⟩ := rfl
  have hmisplaced : read .strict (plain (.number (.integer 7))) = .error misplaced := rfl
  refine ⟨hnone, ((read_same_of_respells .strict hnone).1 _).1 hread, hmisplaced, ?_⟩
  exact (read_same_of_respells .strict (hrespells (.scalar hseven))).2 misplaced hmisplaced

end Declaration

end DeclaredSource
