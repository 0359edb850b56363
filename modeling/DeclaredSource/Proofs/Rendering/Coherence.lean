import DeclaredSource.Rendering.File
import Mathlib.Tactic.MkIffOfInductiveProp

/-!
# Field lists that can be read as they are declared

A field list is coherent when it gives types only, or names only, or when it is a named list: one of
its fields has both parts, no field is a type without a name, and the last one has a type that names
before it can share. Among lists without vacant fields these are the ones that are not mixed.
-/

namespace DeclaredSource.Outline

/-- Neither name nor type. -/
def Field.Vacant (field : Field) : Prop :=
  field.name = none ∧ field.type = none

instance : DecidablePred Field.Vacant :=
  fun field ↦ inferInstanceAs (Decidable (field.name = none ∧ field.type = none))

def TypesOnly (fields : List Field) : Prop :=
  ∀ field ∈ fields, field.name = none ∧ field.type ≠ none

def NamesOnly (fields : List Field) : Prop :=
  ∀ field ∈ fields, field.name ≠ none ∧ field.type = none

/-- A list that declares names with their types. -/
@[mk_iff]
structure Named (fields : List Field) : Prop where
  full : ∃ field ∈ fields, field.name ≠ none ∧ field.type ≠ none
  untyped : ∀ field ∈ fields, ¬ (field.name = none ∧ field.type ≠ none)
  tail : ∃ last ∈ fields.getLast?, last.type ≠ none

def Coherent (fields : List Field) : Prop :=
  TypesOnly fields ∨ NamesOnly fields ∨ Named fields

instance : DecidablePred TypesOnly :=
  fun fields ↦ inferInstanceAs (Decidable (∀ field ∈ fields, _ ∧ _))

instance : DecidablePred NamesOnly :=
  fun fields ↦ inferInstanceAs (Decidable (∀ field ∈ fields, _ ∧ _))

instance : DecidablePred Named :=
  fun fields ↦ decidable_of_iff' _ (named_iff fields)

instance : DecidablePred Coherent :=
  fun _ ↦ inferInstanceAs (Decidable (_ ∨ _ ∨ _))

end DeclaredSource.Outline

namespace DeclaredSource.Rendering

open Outline

theorem isDegenerate_eq_true_iff {field : Field} : isDegenerate field = true ↔ field.Vacant := by
  simp [isDegenerate, Field.Vacant]

theorem isMixed_eq_true_iff {fields : List Field} : isMixed fields = true ↔
    ((∃ field ∈ fields, field.name ≠ none ∧ field.type ≠ none) ∧
      ((∃ field ∈ fields, field.name = none) ∨ ∃ last ∈ fields.getLast?, last.type = none)) ∨
    ((∃ field ∈ fields, field.type = none) ∧ ∃ field ∈ fields, field.name = none) := by
  cases hlast : fields.getLast? <;> simp [isMixed, hlast, Option.isSome_iff_ne_none]

theorem coherent_of_unmixed {fields : List Field} (h : isMixed fields = false) :
    Coherent fields := by
  rw [← Bool.not_eq_true, isMixed_eq_true_iff, not_or,
    Classical.not_and_iff_not_or_not, Classical.not_and_iff_not_or_not] at h
  obtain ⟨hnamed, hunnamed⟩ := h
  by_cases hfull : ∃ field ∈ fields, field.name ≠ none ∧ field.type ≠ none
  · obtain ⟨hnames, htail⟩ := not_or.1 (hnamed.resolve_left (not_not_intro hfull))
    obtain ⟨field, hfield, -⟩ := id hfull
    have hlast := List.getLast?_eq_some_getLast (List.ne_nil_of_mem hfield)
    refine .inr (.inr ⟨hfull, fun field hfield huntyped ↦ hnames ⟨field, hfield, huntyped.1⟩,
      _, hlast, fun htype ↦ htail ⟨_, hlast, htype⟩⟩)
  · have hone : ∀ field ∈ fields, field.name = none ∨ field.type = none := by grind
    rcases hunnamed with htypes | hnames
    · exact .inl (by grind [TypesOnly])
    · exact .inr (.inl (by grind [NamesOnly]))

theorem unmixed_of_coherent {fields : List Field} (h : ∀ field ∈ fields, ¬ field.Vacant)
    (hcoherent : Coherent fields) : isMixed fields = false := by
  unfold Field.Vacant at h
  rw [← Bool.not_eq_true, isMixed_eq_true_iff]
  rcases hcoherent with htypes | hnames | hnamed
  · unfold TypesOnly at htypes
    grind
  · unfold NamesOnly at hnames
    grind
  · have hall : ∀ field ∈ fields, field.name ≠ none := by
      have := hnamed.untyped
      grind
    obtain ⟨last, hlast, htype⟩ := hnamed.tail
    grind

section

variable {function : String} {role : Role} {fields : List Field}

theorem findIdx?_of_full (h : ∀ field ∈ fields, ¬ field.Vacant) :
    fields.findIdx? isDegenerate = none := by
  rw [List.findIdx?_eq_none_iff]
  intro field hfield
  rw [← Bool.not_eq_true, isDegenerate_eq_true_iff]
  exact h field hfield

theorem fieldList_of_vacant {before after : List Field} {field : Field}
    (h : ∀ earlier ∈ before, ¬ earlier.Vacant) (hfield : field.Vacant) :
    fieldList function role (before ++ field :: after) =
      .error (.degenerateField (Place.field role.text before.length function)) := by
  have hbefore := findIdx?_of_full h
  have hindex : (before ++ field :: after).findIdx? isDegenerate = some before.length := by
    simp [List.findIdx?_append, hbefore, List.findIdx?_cons, isDegenerate_eq_true_iff.2 hfield]
  rw [fieldList, hindex]

theorem fieldList_of_incoherent (h : ∀ field ∈ fields, ¬ field.Vacant)
    (hmixed : ¬ Coherent fields) :
    fieldList function role fields =
      .error (.mixedFieldNames (Place.fieldList role.text function)) := by
  have hisMixed : isMixed fields = true := by
    rw [← Bool.not_eq_false]
    exact fun hunmixed ↦ hmixed (coherent_of_unmixed hunmixed)
  rw [fieldList, findIdx?_of_full h]
  exact if_pos hisMixed

theorem fieldList_of_coherent (h : ∀ field ∈ fields, ¬ field.Vacant)
    (hcoherent : Coherent fields) :
    fieldList function role fields = fields.zipIdx.mapM fun (f, index) ↦
      field (Place.field role.text index function) f := by
  rw [fieldList, findIdx?_of_full h]
  simp [unmixed_of_coherent h hcoherent]

theorem full_or_first_vacant (fields : List Field) : (∀ field ∈ fields, ¬ field.Vacant) ∨
    ∃ before field after, fields = before ++ field :: after ∧
      (∀ earlier ∈ before, ¬ earlier.Vacant) ∧ field.Vacant := by
  cases hfind : fields.find? (decide ·.Vacant) with
  | none =>
    rw [List.find?_eq_none] at hfind
    simp only [decide_eq_true_eq] at hfind
    exact .inl hfind
  | some field =>
    obtain ⟨hfield, before, after, hfields, hbefore⟩ := List.find?_eq_some_iff_append.1 hfind
    refine .inr ⟨before, field, after, hfields, ?_, of_decide_eq_true hfield⟩
    simpa using hbefore

end

end DeclaredSource.Rendering
