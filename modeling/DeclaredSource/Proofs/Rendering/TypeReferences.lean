import DeclaredSource.Proofs.Rendering.FieldLists

/-!
# Type references

The text of a type is taken in pieces: as a whole when there is no point in it, and otherwise as
what stands before its first point and all that stands after it. A type is accepted when every piece
is an identifier, which leaves one identifier or two with a point between them, and it is printed as
it was given. A type that is refused is refused for its first piece that is no identifier.
-/

namespace DeclaredSource.Rendering

open FirstFailure Identifier Outline

/-- The pieces in which the text of a type is checked. -/
inductive TypePieces : String → List String → Prop
  | whole {text : String} (h : '.' ∉ text.toList) : TypePieces text [text]
  | sides {before : String} (h : '.' ∉ before.toList) (after : String) :
    TypePieces (before ++ "." ++ after) [before, after]

/-- Only the first point separates, whatever points there are behind it. -/
theorem cutAtPoint?_append {before : String} (h : '.' ∉ before.toList) (after : String) :
    cutAtPoint? (before ++ "." ++ after) = some (before, after) := by
  cases hcut : cutAtPoint? (before ++ "." ++ after) with
  | none =>
    have hpoint := cutAtPoint?_eq_none_iff.1 hcut
    simp at hpoint
  | some sides =>
    obtain ⟨first, rest⟩ := sides
    obtain ⟨hfirst, heq⟩ := cutAtPoint?_eq_some hcut
    have hchars : first.toList ++ '.' :: rest.toList = before.toList ++ '.' :: after.toList := by
      simpa [String.append_assoc] using congrArg String.toList heq
    obtain ⟨hbefore, hafter⟩ := Text.quoted_unique hfirst h hchars
    rw [String.toList_inj.1 hbefore, String.toList_inj.1 hafter]

theorem exists_typePieces (text : String) : ∃ pieces, TypePieces text pieces := by
  cases hcut : cutAtPoint? text with
  | none => exact ⟨[text], .whole (cutAtPoint?_eq_none_iff.1 hcut)⟩
  | some sides =>
    obtain ⟨hpoint, rfl⟩ := cutAtPoint?_eq_some hcut
    exact ⟨[sides.1, sides.2], .sides hpoint sides.2⟩

namespace TypePieces

variable {text place : String} {pieces : List String}

theorem typeSpellings_eq (h : TypePieces text pieces) :
    typeSpellings text = pieces.map .name := by
  rw [typeSpellings]
  cases h with
  | whole hpoint =>
    rw [cutAtPoint?_eq_none_iff.2 hpoint]
    rfl
  | sides hpoint after =>
    rw [cutAtPoint?_append hpoint]
    rfl

/-- Reading a type is checking its pieces one after the other. -/
theorem obeys (h : TypePieces text pieces) (place : String) :
    Obeys (typeReference text place) (pieces.map (.identifier place)) fun e ↦
      Spells e.identifiers (pieces.map .name) := by
  have hchecks : nameChecks place (pieces.map .name) = pieces.map (.identifier place) := by
    rw [nameChecks, List.flatMap_map, List.map_eq_flatMap]
  have hobeys := typeReference_obeys text place
  rwa [h.typeSpellings_eq, hchecks] at hobeys

end TypePieces

theorem TypePieces.accepted_iff {text : String} {pieces : List String} (h : TypePieces text pieces)
    (place : String) :
    (∃ e, typeReference text place = .ok e) ↔ ∀ piece ∈ pieces, isValid piece = true := by
  constructor
  · intro ⟨e, he⟩ piece hpiece
    exact ((h.obeys place).ends e he).valid piece (List.mem_map_of_mem hpiece)
  · intro hvalid
    refine (h.obeys place).exists_ok (failure?_eq_none_iff.2 ?_)
    rw [List.forall_mem_map]
    exact fun piece hpiece ↦ failure?_identifier_eq_none.2 (hvalid piece hpiece)

theorem typeReference_accepted_iff (text place : String) :
    (∃ e, typeReference text place = .ok e) ↔ isValid text = true ∨
      ∃ package member, isValid package = true ∧ isValid member = true ∧
        text = package ++ "." ++ member := by
  have hpointless {name : String} (h : isValid name = true) : '.' ∉ name.toList :=
    not_mem_of_valid h (by decide)
  constructor
  · intro haccepted
    obtain ⟨pieces, hpieces⟩ := exists_typePieces text
    have hvalid := (hpieces.accepted_iff place).1 haccepted
    cases hpieces with
    | whole hpoint => exact .inl (hvalid text List.mem_cons_self)
    | sides hpoint after => exact .inr ⟨_, after, hvalid _ (by simp), hvalid after (by simp), rfl⟩
  · rintro (htext | ⟨package, member, hpackage, hmember, rfl⟩)
    · have hpieces := TypePieces.whole (hpointless htext)
      exact (hpieces.accepted_iff place).2 (by simpa using htext)
    · have hpieces := TypePieces.sides (hpointless hpackage) member
      exact (hpieces.accepted_iff place).2 (by simp [hpackage, hmember])

/-- The first piece of the text that is no identifier, and what keeps it from being one. -/
def Blames (text culprit : String) (issue : Issue) : Prop :=
  ∃ before after, TypePieces text (before ++ culprit :: after) ∧
    (∀ piece ∈ before, isValid piece = true) ∧ issue? culprit = some issue

theorem typeReference_eq_error_iff {text place : String} {e : Error} :
    typeReference text place = .error e ↔ ∃ culprit issue,
      Blames text culprit issue ∧ e = .invalidIdentifier place culprit issue := by
  have hfails {pieces : List String} (h : TypePieces text pieces) :
      typeReference text place = .error e ↔ ∃ before culprit after,
        before ++ culprit :: after = pieces ∧
          (Check.identifier place culprit).failure? = some e ∧
            ∀ piece ∈ before, isValid piece = true := by
    rw [(h.obeys place).fails, failure?, List.findSome?_map, List.findSome?_eq_some_iff]
    simp only [Function.comp_apply, failure?_identifier_eq_none, eq_comm (a := pieces)]
  constructor
  · intro he
    obtain ⟨pieces, hpieces⟩ := exists_typePieces text
    obtain ⟨before, culprit, after, rfl, hculprit, hbefore⟩ := (hfails hpieces).1 he
    obtain ⟨issue, hissue, rfl⟩ := Option.map_eq_some_iff.1 hculprit
    exact ⟨culprit, issue, ⟨before, after, hpieces, hbefore, hissue⟩, rfl⟩
  · rintro ⟨culprit, issue, ⟨before, after, hpieces, hbefore, hissue⟩, rfl⟩
    have hculprit : (Check.identifier place culprit).failure? =
        some (.invalidIdentifier place culprit issue) := by
      rw [Check.failure?, hissue, Option.map_some]
    exact (hfails hpieces).2 ⟨before, culprit, after, rfl, hculprit, hbefore⟩

/-- A type is accepted just when it is an identifier or two identifiers with a point between them.
What is accepted is printed as it was given, by a new writer and after anything else. What is not
accepted is refused for its first piece that is no identifier. -/
theorem typeReference_verbatim_or_blamed (text place : String) :
    ((∃ e, typeReference text place = .ok e) ↔ isValid text = true ∨
      ∃ package member, isValid package = true ∧ isValid member = true ∧
        text = package ++ "." ++ member) ∧
    (∀ e, typeReference text place = .ok e →
      (e.write Source.Writer.empty).text = text ∧
        ∀ writer, e.write writer = writer.write text) ∧
    ∀ e, typeReference text place = .error e ↔ ∃ culprit issue,
      Blames text culprit issue ∧ e = .invalidIdentifier place culprit issue := by
  refine ⟨typeReference_accepted_iff text place, fun e he ↦ ?_,
    fun e ↦ typeReference_eq_error_iff⟩
  have hwrite (writer : Source.Writer) : e.write writer = writer.write text := by
    rw [Source.Expr.write_eq, typeReference_layout he]
  refine ⟨?_, hwrite⟩
  rw [hwrite, Source.Writer.text_write]

theorem typeReference_verbatim_or_blamed_reader :
    ∃ e, typeReference "io.Reader" "here" = .ok e ∧
      (e.write Source.Writer.empty).text = "io.Reader" :=
  ⟨_, rfl, ((typeReference_verbatim_or_blamed "io.Reader" "here").2.1 _ rfl).1⟩

/-- All that stands after the first point is one piece. -/
example : typeReference "a.b.c" "here" =
    .error (.invalidIdentifier "here" "b.c" (.invalidChar '.')) := by rfl

end DeclaredSource.Rendering
