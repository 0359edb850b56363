/-!
# Texts cut at separators

A text is cut at a separator into the stretches between its occurrences, empty stretches included,
so joining the pieces with the separator gives the text back. Lines follow from pieces: a line
feed ends a line, a carriage return directly before it belongs to the line end, and what follows
the last line feed is a line only when it is not empty.
-/

namespace DeclaredSource.Text

/-- The stretches between separators: always one more than there are separators. -/
def cut (separator : Char) : List Char → List (List Char)
  | [] => [[]]
  | c :: rest =>
    if c = separator then [] :: cut separator rest
    else (cut separator rest).modifyHead (c :: ·)

theorem cut_ne_nil (separator : Char) (text : List Char) : cut separator text ≠ [] := by
  induction text with
  | nil => simp [cut]
  | cons c rest ih =>
    by_cases h : c = separator
    · simp [cut, h]
    · obtain ⟨first, others, heq⟩ := List.exists_cons_of_ne_nil ih
      simp [cut, h, heq]

/-- Cutting loses nothing but the separators, which joining puts back. -/
theorem intercalate_cut (separator : Char) (text : List Char) :
    [separator].intercalate (cut separator text) = text := by
  induction text with
  | nil => rfl
  | cons c rest ih =>
    obtain ⟨first, others, heq⟩ := List.exists_cons_of_ne_nil (cut_ne_nil separator rest)
    rw [heq] at ih
    by_cases h : c = separator
    · rw [cut, if_pos h, heq, List.intercalate_cons_cons, ih, h]
      rfl
    · rw [cut, if_neg h, heq, List.modifyHead_cons]
      cases others with
      | nil => simpa [List.intercalate] using ih
      | cons second others =>
        rw [List.intercalate_cons_cons] at ih ⊢
        simpa using ih

theorem not_mem_of_mem_cut {separator : Char} {text piece : List Char}
    (h : piece ∈ cut separator text) : separator ∉ piece := by
  induction text generalizing piece with
  | nil => simp_all [cut]
  | cons c rest ih =>
    by_cases hc : c = separator
    · rw [cut, if_pos hc, List.mem_cons] at h
      rcases h with rfl | h
      · simp
      · exact ih h
    · obtain ⟨first, others, heq⟩ := List.exists_cons_of_ne_nil (cut_ne_nil separator rest)
      rw [cut, if_neg hc, heq, List.modifyHead_cons, List.mem_cons] at h
      rw [heq] at ih
      rcases h with rfl | h
      · have := ih List.mem_cons_self
        simp [this, Ne.symm hc]
      · exact ih (List.mem_cons_of_mem _ h)

def pieces (separator : Char) (text : String) : List String :=
  (cut separator text.toList).map String.ofList

/-- A line's own text, once its line feed is gone. -/
def dropCarriageReturn (line : List Char) : List Char :=
  if line.getLast? = some '\r' then line.dropLast else line

/-- Only the unfinished last line keeps a carriage return at its end. -/
def lineChars (text : List Char) : List (List Char) :=
  let stretches := cut '\n' text
  stretches.dropLast.map dropCarriageReturn ++ (stretches.getLast?.filter (· ≠ [])).toList

def lines (text : String) : List String :=
  (lineChars text.toList).map String.ofList

end DeclaredSource.Text
