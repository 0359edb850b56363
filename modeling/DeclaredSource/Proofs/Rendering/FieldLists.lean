import DeclaredSource.Proofs.Rendering.Checks
import DeclaredSource.Proofs.Text.Entries

/-!
# Field lists are read as they were declared

The field lists that rendering accepts are the coherent ones without vacant fields. A list is
printed with the names and types it was given, word for word, so reading it by its commas and blanks
gives the fields back: every name of a named list with the first type that stands with it or after
it, and one reference for every field of any other list.
-/

namespace DeclaredSource

namespace Outline

/-- The texts that a field is printed with. -/
def Field.parts (field : Field) : List String :=
  field.name.toList ++ field.type.toList

end Outline

namespace Source

theorem Writer.text_write (text : String) : (Writer.empty.write text).text = text := by
  by_cases h : text = "" <;> simp [Writer.write, Writer.empty, Writer.tabs, h]

end Source

namespace Rendering

open FirstFailure Identifier Outline Text

/-- Once a list is accepted as a whole, only a name in it can be refused. -/
theorem invalid_of_fields {function : String} {role : Role} {fields : List Field} {e : Error}
    (h : (fields.zipIdx.mapM fun (f, index) ↦
      field (Place.field role.text index function) f) = .error e) :
    ∃ place name issue, e = .invalidIdentifier place name issue := by
  obtain ⟨check, hcheck, hfailure⟩ :=
    List.exists_of_findSome?_eq_some (((fields_obey function role fields).fails e).1 h)
  obtain ⟨item, -, hcheck⟩ := List.mem_flatMap.1 hcheck
  obtain ⟨name, -, rfl⟩ := mem_nameChecks.1 hcheck
  obtain ⟨issue, -, heq⟩ := Option.map_eq_some_iff.1 hfailure
  exact ⟨_, name, issue, heq.symm⟩

/-- A list is accepted as a whole when no field is vacant and the fields go together. -/
theorem accepted_as_a_whole_iff (function : String) (role : Role) (fields : List Field) :
    (∀ place, fieldList function role fields ≠ .error (.degenerateField place) ∧
        fieldList function role fields ≠ .error (.mixedFieldNames place)) ↔
      (∀ field ∈ fields, ¬ field.Vacant) ∧ Coherent fields := by
  rcases full_or_first_vacant fields with hfull | ⟨before, field, after, rfl, hbefore, hfield⟩
  · by_cases hcoherent : Coherent fields
    · have hnames {e : Error} (h : fieldList function role fields = .error e) :
          ∃ place name issue, e = .invalidIdentifier place name issue := by
        rw [fieldList_of_coherent hfull hcoherent] at h
        exact invalid_of_fields h
      refine iff_of_true (fun place ↦ ⟨fun h ↦ ?_, fun h ↦ ?_⟩) ⟨hfull, hcoherent⟩
      · obtain ⟨_, _, _, heq⟩ := hnames h
        cases heq
      · obtain ⟨_, _, _, heq⟩ := hnames h
        cases heq
    · refine iff_of_false (fun h ↦ ?_) fun h ↦ hcoherent h.2
      exact (h _).2 (fieldList_of_incoherent hfull hcoherent)
  · refine iff_of_false (fun h ↦ ?_) fun h ↦ ?_
    · exact (h _).1 (fieldList_of_vacant hbefore hfield)
    · exact h.1 field (List.mem_append_right _ List.mem_cons_self) hfield

theorem isWord_of_valid {name : String} (h : isValid name = true) : IsWord name := by
  have hpresent : name ≠ "" := by
    rintro rfl
    exact (isValid_iff.1 h).1.ne_nil rfl
  exact ⟨hpresent, not_mem_of_valid h (by decide), not_mem_of_valid h (by decide)⟩

theorem isWord_layout {e : Source.Expr} (h : e.IsReference) : IsWord e.layout := by
  cases h with
  | ident hname => exact isWord_of_valid hname
  | selector hbase hmember =>
    have hbase := isWord_of_valid hbase
    have hmember := isWord_of_valid hmember
    constructor
    · simp [Source.Expr.layout]
    · simp [Source.Expr.layout, hbase.unspaced, hmember.unspaced]
    · simp [Source.Expr.layout, hbase.uncommaed, hmember.uncommaed]

/-- A type is printed as it was given. -/
theorem typeReference_layout {text place : String} {e : Source.Expr}
    (h : typeReference text place = .ok e) : e.layout = text := by
  rw [typeReference] at h
  split at h
  · next hcut =>
    simp only [bind_eq_ok, ident_eq_ok, pure_eq_ok] at h
    obtain ⟨_, ⟨-, rfl⟩, _, ⟨-, rfl⟩, rfl⟩ := h
    exact (cutAtPoint?_eq_some hcut).2
  · simp only [bind_eq_ok, ident_eq_ok, pure_eq_ok] at h
    obtain ⟨_, ⟨-, rfl⟩, rfl⟩ := h
    rfl

/-- What was given can be read off the field that was built from it. -/
theorem field_eq {place : String} {f : Field} {g : Source.Field} (h : field place f = .ok g) :
    f = ⟨g.name, g.type.map Source.Expr.layout⟩ := by
  obtain ⟨name, type⟩ := f
  rw [field] at h
  simp only [bind_eq_ok, optionalIdent_eq_ok, pure_eq_ok] at h
  obtain ⟨_, ⟨-, rfl⟩, type', htype, rfl⟩ := h
  cases type with
  | none =>
    cases htype
    rfl
  | some type =>
    rw [Option.mapM_some, map_eq_ok] at htype
    obtain ⟨e, he, rfl⟩ := htype
    rw [Option.map_some, typeReference_layout he]

theorem layout_eq_parts (g : Source.Field) :
    g.layout = " ".intercalate (Field.parts ⟨g.name, g.type.map Source.Expr.layout⟩) := by
  obtain ⟨name, type⟩ := g
  cases name <;> cases type <;> simp [Source.Field.layout, Field.parts]

theorem isWord_of_mem_parts {place : String} {f : Field} {g : Source.Field}
    (h : field place f = .ok g) : ∀ text ∈ f.parts, IsWord text := by
  obtain ⟨-, -, hname, htype⟩ := field_eq_ok h
  intro text htext
  rw [field_eq h, Field.parts, List.mem_append, Option.mem_toList, Option.mem_toList,
    Option.map_eq_some_iff] at htext
  rcases htext with hgiven | ⟨e, he, rfl⟩
  · exact isWord_of_valid (hname text hgiven)
  · exact isWord_layout (htype e he)

/-- A field that has one part is printed as one reference. -/
theorem reference_of_parts {place : String} {f : Field} {g : Source.Field}
    (h : field place f = .ok g) (hfull : ¬ f.Vacant) (hone : f.name = none ∨ f.type = none) :
    ∃ e : Source.Expr, e.IsReference ∧ f.parts = [e.layout] := by
  obtain ⟨-, -, hname, htype⟩ := field_eq_ok h
  rw [field_eq h] at hfull hone ⊢
  obtain ⟨name, type⟩ := g
  cases name with
  | none =>
    cases type with
    | none => exact absurd ⟨rfl, rfl⟩ hfull
    | some e => exact ⟨e, htype e rfl, rfl⟩
  | some name =>
    cases type with
    | none => exact ⟨.ident name, .ident (hname name rfl), rfl⟩
    | some e => simp at hone

section

variable {function : String} {role : Role} {fields : List Field} {out : List Source.Field}

/-- A list that is built is accepted as a whole, and its fields are built one by one. -/
theorem built_of_fieldList (h : fieldList function role fields = .ok out) :
    (∀ field ∈ fields, ¬ field.Vacant) ∧ Coherent fields ∧
      List.Forall₂ (fun f g ↦ ∃ place, field place f = .ok g) fields out := by
  have hwhole : (∀ field ∈ fields, ¬ field.Vacant) ∧ Coherent fields := by
    rw [← accepted_as_a_whole_iff function role fields, h]
    simp
  rw [fieldList_of_coherent hwhole.1 hwhole.2] at h
  exact ⟨hwhole.1, hwhole.2,
    (forall₂_of_mapM_zipIdx h).imp fun f g ⟨index, hfield⟩ ↦ ⟨_, hfield⟩⟩

/-- A list is built just when it is accepted as a whole and every name in it is valid. -/
theorem fieldList_built_iff : (∃ out, fieldList function role fields = .ok out) ↔
    (∀ field ∈ fields, ¬ field.Vacant) ∧ Coherent fields ∧
      ∀ name, .name name ∈ fields.flatMap Field.spellings → isValid name = true := by
  constructor
  · intro ⟨out, hout⟩
    obtain ⟨hfull, hcoherent, -⟩ := built_of_fieldList hout
    exact ⟨hfull, hcoherent, ((fieldList_obeys function role fields).ends out hout).valid⟩
  · intro ⟨hfull, hcoherent, hvalid⟩
    rw [fieldList_of_coherent hfull hcoherent]
    refine (fields_obey function role fields).exists_ok ?_
    rw [failure?_eq_none_iff, List.forall_mem_flatMap]
    intro (f, index) hf check hcheck
    obtain ⟨name, hname, rfl⟩ := mem_nameChecks.1 hcheck
    have hspelled : .name name ∈ fields.flatMap Field.spellings :=
      List.mem_flatMap.2 ⟨f, List.fst_mem_of_mem_zipIdx hf, hname⟩
    exact failure?_identifier_eq_none.2 (hvalid name hspelled)

theorem field_of_fieldList (h : fieldList function role fields = .ok out) :
    ∀ f ∈ fields, ∃ place g, field place f = .ok g := by
  obtain ⟨-, -, hbuilt⟩ := built_of_fieldList h
  have hboth := hbuilt.imp (S := fun f g ↦ (∃ place g, field place f = .ok g) ∧
    ∃ place, field place f = .ok g) fun f g ⟨place, hfield⟩ ↦ ⟨⟨place, g, hfield⟩, place, hfield⟩
  exact ((List.forall₂_and_left fields out).1 hboth).1

/-- What is printed has an entry for every field, which holds what the field was given. -/
theorem entries_fieldList (h : fieldList function role fields = .ok out) :
    entries (Source.Field.writeList Source.Writer.empty out).text = fields.map Field.parts := by
  obtain ⟨hfull, -, hbuilt⟩ := built_of_fieldList h
  have hlayouts : out.map Source.Field.layout =
      (fields.map Field.parts).map (" ".intercalate ·) := by
    rw [List.map_map, eq_comm, ← List.forall₂_eq_eq_eq, List.forall₂_map_left_iff,
      List.forall₂_map_right_iff]
    refine hbuilt.imp fun f g ⟨place, hfield⟩ ↦ ?_
    rw [layout_eq_parts g, ← field_eq hfield]
    rfl
  have htext : (Source.Field.writeList Source.Writer.empty out).text =
      ", ".intercalate ((fields.map Field.parts).map (" ".intercalate ·)) := by
    rw [Source.Field.writeList_eq, Source.Field.listLayout, hlayouts, Source.Writer.text_write]
  rw [htext]
  refine entries_intercalate ?_ ?_
  · rw [List.forall_mem_map]
    intro f hf hempty
    refine hfull f hf ?_
    simpa [Field.parts, Field.Vacant] using hempty
  · rw [List.forall_mem_map]
    intro f hf
    obtain ⟨place, g, hfield⟩ := field_of_fieldList h f hf
    exact isWord_of_mem_parts hfield

/-- A named list declares its names, each with the type that stands with it if one does. -/
theorem shared_of_named (hnamed : Named fields) (hfull : ∀ field ∈ fields, ¬ field.Vacant) :
    ∃ pairs, shared (fields.map Field.parts) = some pairs ∧ pairs.length = fields.length ∧
      ∀ (index : Nat) (field : Field), fields[index]? = some field →
        ∃ name type, field.name = some name ∧
          (fields.drop index).findSome? Field.type = some type ∧
            pairs[index]? = some (name, type) := by
  let items := fields.map fun field ↦ (field.name.getD "", field.type)
  have hname {field : Field} (hfield : field ∈ fields) :
      field.name = some (field.name.getD "") := by
    cases hgiven : field.name with
    | some name => rfl
    | none =>
      have huntyped := hnamed.untyped field hfield
      have hvacant := hfull field hfield
      exact absurd ⟨hgiven, fun htype ↦ hvacant ⟨hgiven, htype⟩⟩ huntyped
  have hparts : fields.map Field.parts = items.map fun item ↦ item.1 :: item.2.toList := by
    rw [List.map_map]
    refine List.map_congr_left fun field hfield ↦ ?_
    rw [Field.parts, hname hfield]
    rfl
  have htail : ∀ last, items.getLast? = some last → last.2.isSome = true := by
    intro last hlast
    obtain ⟨field, hfield, htype⟩ := hnamed.tail
    rw [List.getLast?_map, hfield, Option.map_some, Option.some.injEq] at hlast
    rw [← hlast, Option.isSome_iff_ne_none]
    exact htype
  obtain ⟨pairs, hpairs, hdeclares⟩ := exists_shared htail
  refine ⟨pairs, hparts ▸ hpairs, ?_, fun index field hfield ↦ ?_⟩
  · rw [hdeclares.length, List.length_map]
  · obtain ⟨type, htype, hpair⟩ := hdeclares.each index (field.name.getD "", field.type) (by
      rw [List.getElem?_map, hfield, Option.map_some])
    rw [← List.map_drop, List.findSome?_map] at htype
    exact ⟨_, type, hname (List.mem_of_getElem? hfield), htype, hpair⟩

theorem references_of_unnamed (h : fieldList function role fields = .ok out)
    (hunnamed : TypesOnly fields ∨ NamesOnly fields) :
    ∀ entry ∈ fields.map Field.parts,
      ∃ e : Source.Expr, e.IsReference ∧ entry = [e.layout] := by
  obtain ⟨hfull, -, -⟩ := built_of_fieldList h
  rw [List.forall_mem_map]
  intro f hf
  obtain ⟨place, g, hfield⟩ := field_of_fieldList h f hf
  refine reference_of_parts hfield (hfull f hf) ?_
  rcases hunnamed with htypes | hnames
  · exact .inl (htypes f hf).1
  · exact .inr (hnames f hf).2

end

/-- A list is accepted as a whole exactly when no field is vacant and the fields go together, the
first vacant field is the one that is blamed, and an accepted list is built when its names are
valid. Read by commas and blanks, a named list that was
built gives every name back with the first type that stands with it or after it, and any other list
gives one reference for every field. -/
theorem fieldList_read_as_declared (function : String) (role : Role) (fields : List Field) :
    ((∀ place, fieldList function role fields ≠ .error (.degenerateField place) ∧
        fieldList function role fields ≠ .error (.mixedFieldNames place)) ↔
      (∀ field ∈ fields, ¬ field.Vacant) ∧ Coherent fields) ∧
    (∀ before field after, fields = before ++ field :: after →
      (∀ earlier ∈ before, ¬ earlier.Vacant) → field.Vacant →
        fieldList function role fields =
          .error (.degenerateField (Place.field role.text before.length function))) ∧
    ((∃ out, fieldList function role fields = .ok out) ↔
      (∀ field ∈ fields, ¬ field.Vacant) ∧ Coherent fields ∧
        ∀ name, .name name ∈ fields.flatMap Field.spellings → isValid name = true) ∧
    ∀ out, fieldList function role fields = .ok out →
      let printed := entries (Source.Field.writeList Source.Writer.empty out).text
      (Named fields → ∃ pairs, shared printed = some pairs ∧ pairs.length = fields.length ∧
        ∀ (index : Nat) (field : Field), fields[index]? = some field →
          ∃ name type, field.name = some name ∧
            (fields.drop index).findSome? Field.type = some type ∧
              pairs[index]? = some (name, type)) ∧
      (TypesOnly fields ∨ NamesOnly fields →
        printed = fields.map Field.parts ∧
          ∀ entry ∈ printed, ∃ e : Source.Expr, e.IsReference ∧ entry = [e.layout]) := by
  refine ⟨accepted_as_a_whole_iff function role fields, ?_, fieldList_built_iff, fun out hout ↦ ?_⟩
  · rintro before field after rfl hbefore hfield
    exact fieldList_of_vacant hbefore hfield
  · obtain ⟨hfull, -, -⟩ := built_of_fieldList hout
    dsimp only
    rw [entries_fieldList hout]
    exact ⟨fun hnamed ↦ shared_of_named hnamed hfull,
      fun hunnamed ↦ ⟨rfl, references_of_unnamed hout hunnamed⟩⟩

/-- Two names of one type, and a third of another. -/
def groupedFields : List Field :=
  [⟨some "a", none⟩, ⟨some "b", some "io.Reader"⟩, ⟨some "n", some "int"⟩]

theorem fieldList_read_as_declared_grouped :
    ∃ out, fieldList "f" .parameter groupedFields = .ok out ∧
      (Source.Field.writeList Source.Writer.empty out).text = "a, b io.Reader, n int" ∧
      Named groupedFields ∧
      ∃ pairs, shared (entries (Source.Field.writeList Source.Writer.empty out).text) = some pairs ∧
        pairs.length = 3 :=
  ⟨_, rfl, rfl, by decide,
    (((fieldList_read_as_declared "f" .parameter groupedFields).2.2.2 _ rfl).1 (by decide)).imp
      fun _ h ↦ ⟨h.1, h.2.1⟩⟩

end Rendering

end DeclaredSource
