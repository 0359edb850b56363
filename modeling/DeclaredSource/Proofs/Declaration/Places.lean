import DeclaredSource.Declaration.Place
import DeclaredSource.Proofs.Identifier
import DeclaredSource.Proofs.Text.Determined

/-!
# Places are told apart by their texts

The attributes of a declaration are named by identifiers and reserved words. In the text of a place
such a name ends at a point, at a bracket or with the text, and a position ends at its bracket, so
the segments are read back one after the other. The text of the root holds blanks, which no other
text of a place does.
-/

namespace DeclaredSource.Declaration

open Identifier Text

/-- A position, or an attribute whose name is an identifier or a reserved word. -/
def Segment.Plain : Segment → Prop
  | .member name => isValid name = true ∨ isKeyword name = true
  | .item _ => True

instance : DecidablePred Segment.Plain
  | .member name => inferInstanceAs (Decidable (isValid name = true ∨ isKeyword name = true))
  | .item _ => inferInstanceAs (Decidable True)

namespace Place

def Plain (place : Place) : Prop :=
  ∀ segment ∈ place.segments, segment.Plain

instance : DecidablePred Plain :=
  fun place ↦ inferInstanceAs (Decidable (∀ segment ∈ place.segments, segment.Plain))

theorem continues_of_plain {name : String} (h : (Segment.member name).Plain) :
    name.toList ≠ [] ∧ ∀ c ∈ name.toList, continues c = true := by
  have hspelled : Spelled name := by
    rcases h with hvalid | hkeyword
    · exact (isValid_iff.1 hvalid).1
    · exact spelled_of_keyword hkeyword
  exact ⟨hspelled.ne_nil, hspelled.forall_continues⟩

theorem toList_item (index : Nat) :
    (headText (.item index)).toList = '[' :: (Nat.toDigits 10 index ++ [']']) := by
  simp [headText]

theorem blank_not_mem_headText {segment : Segment} (h : segment.Plain) :
    ' ' ∉ (headText segment).toList := by
  intro hmem
  cases segment with
  | member name =>
    have hcontinues := (continues_of_plain h).2 ' ' hmem
    exact absurd hcontinues (by decide)
  | item index =>
    rw [toList_item] at hmem
    have hdigit : ' ' ∈ Nat.toDigits 10 index := by simpa using hmem
    exact not_mem_toDigits (by decide) index hdigit

/-- What can stand behind a segment: nothing, or another one. -/
def Follows (rest : List Char) : Prop :=
  rest = [] ∨ Opens ['.', '['] rest

theorem Follows.stops {rest : List Char} (h : Follows rest) : Stops continues rest := by
  rcases h with rfl | hopens
  · simp [Stops]
  · exact hopens.stops (by decide)

/-- The text of a position begins with a bracket, and that of an attribute does not. -/
theorem member_ne_item {name : String} (h : (Segment.member name).Plain) (index : Nat)
    (rest rest' : List Char) :
    (headText (.member name)).toList ++ rest ≠ (headText (.item index)).toList ++ rest' := by
  obtain ⟨hpresent, hcontinues⟩ := continues_of_plain h
  obtain ⟨first, others, hname⟩ := List.exists_cons_of_ne_nil hpresent
  intro heq
  rw [headText, hname, toList_item] at heq
  obtain ⟨rfl, -⟩ := List.cons.inj heq
  rw [hname] at hcontinues
  exact absurd (hcontinues '[' List.mem_cons_self) (by decide)

theorem determines_headText :
    Determines Segment.Plain (fun segment ↦ (headText segment).toList) id Follows := by
  intro segment segment' h h' rest rest' hrest hrest' heq
  cases segment with
  | member name =>
    cases segment' with
    | member name' =>
      obtain ⟨hname, hends⟩ := run_unique (continues_of_plain h).2 (continues_of_plain h').2
        hrest.stops hrest'.stops heq
      exact ⟨congrArg Segment.member (String.toList_inj.1 hname), hends⟩
    | item index => exact absurd heq (member_ne_item h index rest rest')
  | item index =>
    cases segment' with
    | member name => exact absurd heq.symm (member_ne_item h' index rest' rest)
    | item index' =>
      simp only [toList_item, List.cons_append, List.append_assoc, List.cons.injEq,
        true_and] at heq
      have hstops (rest : List Char) : Stops Char.isDigit (']' :: rest) := by simp [Stops]
      obtain ⟨rfl, hends⟩ := toDigits_unique (hstops rest) (hstops rest') heq
      exact ⟨rfl, (List.cons.inj hends).2⟩

/-- A segment after the first has its own mark in front. -/
theorem toList_tailText (segment : Segment) :
    (tailText segment).toList = match segment with
      | .member _ => '.' :: (headText segment).toList
      | .item _ => (headText segment).toList := by
  cases segment with
  | member name => exact String.toList_append
  | item index => rfl

theorem determines_tailText :
    Determines Segment.Plain (fun segment ↦ (tailText segment).toList) id Follows := by
  intro segment segment' h h' rest rest' hrest hrest' heq
  simp only [toList_tailText] at heq
  cases segment with
  | member name =>
    cases segment' with
    | member name' => exact determines_headText h h' hrest hrest' (List.cons.inj heq).2
    | item index =>
      rw [toList_item] at heq
      exact absurd (List.cons.inj heq).1 (by decide)
  | item index =>
    cases segment' with
    | member name =>
      rw [toList_item] at heq
      exact absurd (List.cons.inj heq).1 (by decide)
    | item index' => exact determines_headText h h' hrest hrest' heq

theorem tailText_opens (segment : Segment) : Opens ['.', '['] (tailText segment).toList := by
  rw [toList_tailText]
  cases segment with
  | member name => exact .cons (by decide) _
  | item index =>
    rw [toList_item]
    exact .cons (by decide) _

theorem determines_tail :
    Determines (fun segments : List Segment ↦ ∀ segment ∈ segments, segment.Plain)
      (·.flatMap fun segment ↦ (tailText segment).toList) (List.map id) (· = []) := by
  refine .inSequence ['.', '['] determines_tailText (fun segment _ ↦ tailText_opens segment) ?_
  rintro rest rfl
  simp [Opens]

theorem toList_text_cons (first : Segment) (rest : List Segment) :
    (Place.mk (first :: rest)).text.toList =
      (headText first).toList ++ rest.flatMap fun segment ↦ (tailText segment).toList := by
  rw [text, String.toList_append, String.toList_join, List.flatMap_map]

theorem blank_not_mem_text {first : Segment} {rest : List Segment}
    (h : (Place.mk (first :: rest)).Plain) : ' ' ∉ (Place.mk (first :: rest)).text.toList := by
  obtain ⟨hfirst, hrest⟩ := List.forall_mem_cons.1 h
  rw [toList_text_cons, List.mem_append, not_or]
  refine ⟨blank_not_mem_headText hfirst, fun hmem ↦ ?_⟩
  obtain ⟨segment, hsegment, hblank⟩ := List.mem_flatMap.1 hmem
  have hhead := blank_not_mem_headText (hrest segment hsegment)
  rw [toList_tailText] at hblank
  cases segment with
  | member name => exact hhead (List.mem_of_ne_of_mem (by decide) hblank)
  | item index => exact hhead hblank

theorem eq_of_text_cons {first first' : Segment} {rest rest' : List Segment}
    (h : (Place.mk (first :: rest)).Plain) (h' : (Place.mk (first' :: rest')).Plain)
    (heq : (Place.mk (first :: rest)).text = (Place.mk (first' :: rest')).text) :
    first = first' ∧ rest = rest' := by
  have hfollows (rest : List Segment) :
      Follows (rest.flatMap fun segment ↦ (tailText segment).toList) := by
    cases rest with
    | nil => exact .inl rfl
    | cons next others => exact .inr ((tailText_opens next).append _)
  obtain ⟨hfirst, hrest⟩ := List.forall_mem_cons.1 h
  obtain ⟨hfirst', hrest'⟩ := List.forall_mem_cons.1 h'
  rw [← String.toList_inj, toList_text_cons, toList_text_cons] at heq
  obtain ⟨hsame, htails⟩ :=
    determines_headText hfirst hfirst' (hfollows rest) (hfollows rest') heq
  obtain ⟨hsegments, -⟩ :=
    determines_tail hrest hrest' rfl rfl (congrArg (· ++ []) htails)
  rw [List.map_id, List.map_id] at hsegments
  exact ⟨hsame, hsegments⟩

theorem blank_mem_text_root : ' ' ∈ Place.root.text.toList := by decide

/-- Two places with the same text are the same place, and only the root has the text of the root. -/
theorem text_eq_text_iff {place place' : Place} (h : place.Plain) (h' : place'.Plain) :
    (place.text = place'.text ↔ place = place') ∧
      (place.text = Place.root.text ↔ place = Place.root) := by
  have hroot {first : Segment} {rest : List Segment} (h : (Place.mk (first :: rest)).Plain) :
      (Place.mk (first :: rest)).text ≠ Place.root.text := by
    intro heq
    exact blank_not_mem_text h (heq ▸ blank_mem_text_root)
  obtain ⟨segments⟩ := place
  obtain ⟨segments'⟩ := place'
  cases segments with
  | nil =>
    refine ⟨⟨fun heq ↦ ?_, congrArg text⟩, iff_of_true rfl rfl⟩
    cases segments' with
    | nil => rfl
    | cons first rest => exact absurd heq.symm (hroot h')
  | cons first rest =>
    refine ⟨⟨fun heq ↦ ?_, congrArg text⟩, iff_of_false (hroot h) (by simp [root])⟩
    cases segments' with
    | nil => exact absurd heq (hroot h)
    | cons first' rest' =>
      obtain ⟨rfl, rfl⟩ := eq_of_text_cons h h' heq
      rfl

/-- A position of two digits is not two positions. -/
theorem text_eq_text_iff_positions :
    let place : Place := ⟨[.member "functions", .item 12, .member "func"]⟩
    let place' : Place := ⟨[.member "functions", .item 1, .item 2, .member "func"]⟩
    place.Plain ∧ place'.Plain ∧ place.text = "functions[12].func" ∧
      place.text ≠ place'.text ∧ place.text ≠ Place.root.text := by
  intro place place'
  have hplain : place.Plain := by decide
  have hplain' : place'.Plain := by decide
  obtain ⟨hsame, hroot⟩ := text_eq_text_iff hplain hplain'
  refine ⟨hplain, hplain', rfl, fun heq ↦ ?_, fun heq ↦ ?_⟩
  · exact absurd (hsame.1 heq) (by decide)
  · exact absurd (hroot.1 heq) (by decide)

end Place

end DeclaredSource.Declaration
