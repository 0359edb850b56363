import DeclaredSource.Proofs.Text.Solid

/-!
# Entries between commas

A list between commas is read entry by entry, and an entry by its words. In a list of names and
types an entry of one word is a name that waits for its type: the type of the next entry that has
one. What is joined from words by blanks and commas is read back as those words.
-/

namespace DeclaredSource.Text

/-- What stands between blanks. -/
def words (text : String) : List String :=
  (pieces ' ' text).filter (· ≠ "")

/-- The words between commas; an empty text has no entries. -/
def entries (text : String) : List (List String) :=
  if text = "" then [] else (pieces ',' text).map words

/-- Every name with its type, when the entries are names that share the type of the next entry of
two words, and such entries. -/
def shared : List (List String) → Option (List (String × String))
  | [] => some []
  | [name] :: rest =>
    match shared rest with
    | some ((next, type) :: others) => some ((name, type) :: (next, type) :: others)
    | _ => none
  | [name, type] :: rest => (shared rest).map ((name, type) :: ·)
  | _ :: _ => none

/-- Neither blank nor comma is part of a word. -/
structure IsWord (text : String) : Prop where
  present : text ≠ ""
  unspaced : ' ' ∉ text.toList
  uncommaed : ',' ∉ text.toList

theorem cut_of_not_mem {separator : Char} {text : List Char} (h : separator ∉ text) :
    cut separator text = [text] := by
  induction text with
  | nil => rfl
  | cons c text ih =>
    rw [List.mem_cons, not_or] at h
    rw [cut, if_neg (Ne.symm h.1), ih h.2, List.modifyHead_cons]

theorem pieces_of_not_mem {separator : Char} {text : String} (h : separator ∉ text.toList) :
    pieces separator text = [text] := by
  rw [pieces, cut_of_not_mem h, List.map_singleton, String.ofList_toList]

theorem pieces_append {separator : Char} {first : String} (h : separator ∉ first.toList)
    (rest : String) : pieces separator (first ++ String.singleton separator ++ rest) =
      first :: pieces separator rest := by
  have htoList : (first ++ String.singleton separator ++ rest).toList =
      first.toList ++ separator :: rest.toList := by simp
  rw [pieces, htoList, cut_append_cons h, List.map_cons, String.ofList_toList, pieces]

theorem words_append {first : String} (h : IsWord first) (rest : String) :
    words (first ++ " " ++ rest) = first :: words rest := by
  have hpieces : pieces ' ' (first ++ " " ++ rest) = first :: pieces ' ' rest :=
    pieces_append h.unspaced rest
  simp [words, hpieces, h.present]

theorem words_intercalate {texts : List String} (h : ∀ text ∈ texts, IsWord text) :
    words (" ".intercalate texts) = texts := by
  induction texts with
  | nil => rfl
  | cons first rest ih =>
    rw [List.forall_mem_cons] at h
    cases rest with
    | nil => simp [words, pieces_of_not_mem h.1.unspaced, h.1.present]
    | cons second rest => rw [String.intercalate_cons_cons, words_append h.1, ih h.2]

/-- A blank before a text adds no word. -/
theorem words_blank_append (text : String) : words (" " ++ text) = words text := by
  have hpieces : pieces ' ' ("" ++ " " ++ text) = "" :: pieces ' ' text :=
    pieces_append (by simp) text
  rw [String.empty_append] at hpieces
  simp [words, hpieces]

theorem map_words_blank_append (text : String) :
    (pieces ',' (" " ++ text)).map words = (pieces ',' text).map words := by
  obtain ⟨first, rest, hcut⟩ := List.exists_cons_of_ne_nil (cut_ne_nil ',' text.toList)
  have hblank : cut ',' (" " ++ text).toList = (' ' :: first) :: rest := by
    rw [String.toList_append]
    exact congrArg (List.modifyHead (' ' :: ·)) hcut
  have hfirst : String.ofList (' ' :: first) = " " ++ String.ofList first := by
    rw [← String.toList_inj]
    simp
  rw [pieces, pieces, hblank, hcut, List.map_cons, List.map_cons, List.map_cons, List.map_cons,
    hfirst, words_blank_append]

theorem uncommaed_intercalate {texts : List String} (h : ∀ text ∈ texts, IsWord text) :
    ',' ∉ (" ".intercalate texts).toList := by
  induction texts with
  | nil => simp
  | cons first rest ih =>
    rw [List.forall_mem_cons] at h
    cases rest with
    | nil =>
      rw [String.intercalate_singleton]
      exact h.1.uncommaed
    | cons second rest =>
      rw [String.intercalate_cons_cons, String.toList_append, String.toList_append,
        List.mem_append, List.mem_append, not_or, not_or]
      exact ⟨⟨h.1.uncommaed, by decide⟩, ih h.2⟩

theorem map_words_intercalate {first : List String} {rest : List (List String)}
    (h : ∀ item ∈ first :: rest, ∀ text ∈ item, IsWord text) :
    (pieces ',' (", ".intercalate ((first :: rest).map (" ".intercalate ·)))).map words =
      first :: rest := by
  induction rest generalizing first with
  | nil =>
    rw [List.forall_mem_singleton] at h
    rw [List.map_singleton, String.intercalate_singleton,
      pieces_of_not_mem (uncommaed_intercalate h), List.map_singleton, words_intercalate h]
  | cons second rest ih =>
    rw [List.forall_mem_cons] at h
    let after := ", ".intercalate ((second :: rest).map (" ".intercalate ·))
    have hpieces : pieces ',' (" ".intercalate first ++ "," ++ (" " ++ after)) =
        " ".intercalate first :: pieces ',' (" " ++ after) :=
      pieces_append (uncommaed_intercalate h.1) (" " ++ after)
    have htext : ", ".intercalate ((first :: second :: rest).map (" ".intercalate ·)) =
        " ".intercalate first ++ "," ++ (" " ++ after) := by
      calc
        _ = " ".intercalate first ++ ", " ++ after := String.intercalate_cons_cons
        _ = " ".intercalate first ++ "," ++ (" " ++ after) := by
          rw [show ", " = "," ++ " " from rfl]
          simp only [String.append_assoc]
    rw [htext, hpieces, List.map_cons, words_intercalate h.1, map_words_blank_append, ih h.2]

/-- Entries joined by commas, each from its words, are read back. -/
theorem entries_intercalate {items : List (List String)} (present : ∀ item ∈ items, item ≠ [])
    (h : ∀ item ∈ items, ∀ text ∈ item, IsWord text) :
    entries (", ".intercalate (items.map (" ".intercalate ·))) = items := by
  cases items with
  | nil => rfl
  | cons first rest =>
    have hmap := map_words_intercalate h
    rw [entries, if_neg, hmap]
    intro hempty
    rw [hempty] at hmap
    have hfirst : first = [] := (List.cons.inj hmap).1.symm
    exact present first List.mem_cons_self hfirst

/-- The names of the items, each with the first type that stands with it or after it. -/
structure Declares (items : List (String × Option String)) (pairs : List (String × String)) :
    Prop where
  length : pairs.length = items.length
  each : ∀ (index : Nat) (item : String × Option String), items[index]? = some item →
    ∃ type, (items.drop index).findSome? Prod.snd = some type ∧
      pairs[index]? = some (item.1, type)

theorem Declares.cons {name type : String} {stated : Option String}
    {items : List (String × Option String)} {pairs : List (String × String)}
    (h : Declares items pairs)
    (hfirst : ((name, stated) :: items).findSome? Prod.snd = some type) :
    Declares ((name, stated) :: items) ((name, type) :: pairs) := by
  constructor
  · rw [List.length_cons, List.length_cons, h.length]
  · intro index item hitem
    cases index with
    | zero =>
      obtain rfl := Option.some.inj hitem
      exact ⟨type, hfirst, rfl⟩
    | succ index => exact h.each index item hitem

/-- Entries of names are read when the last of them has a type. -/
theorem exists_shared {items : List (String × Option String)}
    (tail : ∀ last, items.getLast? = some last → last.2.isSome = true) :
    ∃ pairs, shared (items.map fun item ↦ item.1 :: item.2.toList) = some pairs ∧
      Declares items pairs := by
  induction items with
  | nil => exact ⟨[], rfl, rfl, by simp⟩
  | cons first rest ih =>
    obtain ⟨name, stated⟩ := first
    obtain ⟨pairs, hpairs, hdeclares⟩ := ih fun last hlast ↦
      tail last (by rw [List.getLast?_cons, hlast, Option.getD_some])
    cases stated with
    | some type =>
      refine ⟨(name, type) :: pairs, ?_, hdeclares.cons rfl⟩
      exact congrArg (Option.map ((name, type) :: ·)) hpairs
    | none =>
      cases rest with
      | nil => exact absurd (tail (name, none) rfl) (by simp)
      | cons second rest =>
        -- The name takes the type that the next one was given.
        obtain ⟨type, htype, hsecond⟩ := hdeclares.each 0 second rfl
        obtain ⟨others, rfl⟩ : ∃ others, pairs = (second.1, type) :: others :=
          List.head?_eq_some_iff.1 (by rwa [List.head?_eq_getElem?])
        refine ⟨(name, type) :: (second.1, type) :: others, ?_, hdeclares.cons htype⟩
        rw [List.map_cons, Option.toList_none, shared, hpairs]

end DeclaredSource.Text
