import DeclaredSource.Declaration.Reading
import DeclaredSource.Proofs.FirstFailure

/-!
# Attributes of a declaration

A declaration is a bare tree before it is a block with a place. This file says what the attributes,
the lists and the kind of an object of the tree are, and restates every way of taking an attribute
out of a block in these words. An attribute is foreign to a kind when strict reading refuses it.
-/

namespace DeclaredSource

open FirstFailure

namespace Json

/-- An attribute that is neither absent nor null. -/
def attribute? (value : Json) (name : String) : Option Json :=
  match value with
  | .object fields => (fields.lookup name).filter (!·.isNull)
  | _ => none

/-- The items of an attribute that is a list. -/
def elements (value : Json) (name : String) : List Json :=
  match value.attribute? name with
  | some (.array items) => items
  | _ => []

/-- The text by which an object says what it describes. -/
def kindText? (value : Json) : Option String :=
  (value.attribute? "kind").bind scalarText?

end Json

namespace Vocabulary

variable {κ : Type} [Vocabulary κ]

theorem spelling_of_read? {text : String} {kind : κ} (h : read? text = some kind) :
    spelling kind = text := by
  simpa using List.find?_some h

theorem not_mem_spellings_of_read? {text : String} (h : (read? text : Option κ) = none) :
    text ∉ spellings κ := by
  rw [spellings, List.mem_map]
  rintro ⟨kind, hkind, hspelling⟩
  have := List.find?_eq_none.1 h kind hkind
  simp [hspelling] at this

end Vocabulary

namespace Declaration

/-- Attributes that do not belong to a block of the kind: the payloads of the other kinds of
expression, and the results of a return in an expression statement. -/
inductive Foreign : String → String → Prop
  | payload (kind other : ExpressionKind) (different : other ≠ kind) :
    Foreign (Vocabulary.spelling kind) (Vocabulary.spelling other)
  | results : Foreign (Vocabulary.spelling StatementKind.expression) "results"

namespace Block

/-- The object that a block stands for. -/
def value (block : Block) : Json :=
  .object block.fields

theorem get?_eq (block : Block) (attr : String) : block.get? attr = block.value.attribute? attr :=
  rfl

theorem has_eq (block : Block) (attr : String) :
    block.has attr = (block.value.attribute? attr).isSome :=
  rfl

theorem ofJson_eq_ok {value : Json} {place : Place} {block : Block} :
    ofJson value place = .ok block ↔ value = block.value ∧ block.place = place := by
  obtain ⟨fields, place'⟩ := block
  cases value <;> simp [ofJson, Block.value, eq_comm]

theorem ofJson_eq_error {value : Json} {place : Place} {e : Error}
    (h : ofJson value place = .error e) :
    value.shape ≠ .object ∧ e = .typeMismatch place .object value.shape := by
  cases value <;> simp_all [ofJson, Json.shape]

theorem textOf_eq_ok {value : Json} {place : Place} {text : String} :
    textOf value place = .ok text ↔ value.scalarText? = some text := by
  rw [textOf]
  cases value.scalarText? <;> simp

theorem requiredText_eq_ok {block : Block} {attr text : String} :
    block.requiredText attr = .ok text ↔
      (block.value.attribute? attr).bind Json.scalarText? = some text := by
  rw [requiredText, get?_eq]
  cases block.value.attribute? attr <;> simp [textOf_eq_ok]

theorem requiredBlock_eq_ok {block inner : Block} {attr : String} :
    block.requiredBlock attr = .ok inner ↔
      block.value.attribute? attr = some inner.value ∧ inner.place = block.place.member attr := by
  rw [requiredBlock, get?_eq]
  cases block.value.attribute? attr <;> simp [ofJson_eq_ok]

theorem optionalBlock_eq_some {block inner : Block} {attr : String} :
    block.optionalBlock attr = .ok (some inner) ↔
      block.value.attribute? attr = some inner.value ∧ inner.place = block.place.member attr := by
  rw [optionalBlock, get?_eq]
  cases block.value.attribute? attr <;> simp [map_eq_ok, ofJson_eq_ok]

theorem optionalBlock_eq_none {block : Block} {attr : String} :
    block.optionalBlock attr = .ok none ↔ block.value.attribute? attr = none := by
  rw [optionalBlock, get?_eq]
  cases block.value.attribute? attr <;> simp [map_eq_ok]

theorem kind_eq_ok {κ : Type} [Vocabulary κ] {block : Block} {kind : κ} :
    block.kind κ = .ok kind ↔
      ∃ text, block.value.kindText? = some text ∧ Vocabulary.read? text = some kind := by
  simp only [Block.kind, bind_eq_ok, requiredText_eq_ok, Json.kindText?]
  refine exists_congr fun text ↦ and_congr_right fun _ ↦ ?_
  cases (Vocabulary.read? text : Option κ) <;> simp

theorem kindText?_of_kind {κ : Type} [Vocabulary κ] {block : Block} {kind : κ}
    (h : block.kind κ = .ok kind) :
    block.value.kindText? = some (Vocabulary.spelling kind) := by
  obtain ⟨text, htext, hread⟩ := kind_eq_ok.1 h
  rw [htext, Vocabulary.spelling_of_read? hread]

/-- The blocks of a list are its items, each at its position. -/
theorem blocks_eq_ok {block : Block} {attr : String} {inner : List Block}
    (h : block.blocks attr = .ok inner) :
    inner.map Block.value = block.value.elements attr := by
  rw [blocks, get?_eq] at h
  rw [Json.elements]
  cases hattr : block.value.attribute? attr with
  | none =>
    rw [hattr] at h
    cases h
    rfl
  | some value =>
    rw [hattr] at h
    cases value with
    | array items =>
      simp only [mapM_eq_ok, ofJson_eq_ok] at h
      have hvalues : List.Forall₂ (fun item (b : Block) ↦ item.1 = b.value) items.zipIdx inner :=
        h.imp fun _ _ hitem ↦ hitem.1
      have hmap := (List.forall₂_map_left_iff (f := Prod.fst)
        (R := fun item (b : Block) ↦ item = b.value)).2 hvalues
      rw [List.zipIdx_map_fst] at hmap
      have heq := (List.forall₂_map_right_iff (f := Block.value) (R := Eq)).2 hmap
      exact (List.forall₂_eq_eq_eq ▸ heq : items = inner.map Block.value).symm
    | _ => cases h

section Congruence

/-! Of the fields of a block, nothing counts but the value of the attribute that is asked for. -/

variable {block block' : Block} {attr : String}

theorem requiredText_congr (hplace : block'.place = block.place)
    (hvalue : block'.value.attribute? attr = block.value.attribute? attr) :
    block'.requiredText attr = block.requiredText attr := by
  rw [requiredText, requiredText, get?_eq, get?_eq, hvalue, hplace]

theorem optionalText_congr (hplace : block'.place = block.place)
    (hvalue : block'.value.attribute? attr = block.value.attribute? attr) :
    block'.optionalText attr = block.optionalText attr := by
  rw [optionalText, optionalText, get?_eq, get?_eq, hvalue, hplace]

theorem kind_congr {κ : Type} [Vocabulary κ] (hplace : block'.place = block.place)
    (hvalue : block'.value.attribute? "kind" = block.value.attribute? "kind") :
    block'.kind κ = block.kind κ := by
  rw [Block.kind, Block.kind, requiredText_congr hplace hvalue, hplace]

theorem has_congr (hvalue : block'.value.attribute? attr = block.value.attribute? attr) :
    block'.has attr = block.has attr := by
  rw [has_eq, has_eq, hvalue]

theorem optionalBlock_congr (hplace : block'.place = block.place)
    (hvalue : block'.value.attribute? attr = block.value.attribute? attr) :
    block'.optionalBlock attr = block.optionalBlock attr := by
  rw [optionalBlock, optionalBlock, get?_eq, get?_eq, hvalue, hplace]

theorem blocks_congr (hplace : block'.place = block.place)
    (hvalue : block'.value.attribute? attr = block.value.attribute? attr) :
    block'.blocks attr = block.blocks attr := by
  rw [blocks, blocks, get?_eq, get?_eq, hvalue, hplace]

end Congruence

end Block

end Declaration

end DeclaredSource
