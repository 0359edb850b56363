import DeclaredSource.Proofs.Identifier
import DeclaredSource.Text.Pieces

/-!
# Solid texts and canonical lines

White space is what has the Unicode property of that name. A text is solid when it stands on one
line and neither begins nor ends with white space: whatever stands on the same line between two
solid texts, the whole is solid again. A text in lines is canonical when every line that is not
blank is a solid text with at most one tab before it, and no blank line comes last or after another.
-/

namespace DeclaredSource.Text

/-- The characters with the Unicode property White_Space, as closed ranges of code points. -/
def spaceRanges : List (Nat × Nat) := [
  (0x9, 0xD), (0x20, 0x20), (0x85, 0x85), (0xA0, 0xA0), (0x1680, 0x1680), (0x2000, 0x200A),
  (0x2028, 0x2029), (0x202F, 0x202F), (0x205F, 0x205F), (0x3000, 0x3000)]

def isSpace (c : Char) : Bool :=
  spaceRanges.any fun range ↦ range.1 ≤ c.toNat && c.toNat ≤ range.2

theorem isSpace_eq_false_of_continues {c : Char} (h : Identifier.continues c = true) :
    isSpace c = false := by
  by_cases hunderscore : c = '_'
  · rw [hunderscore]
    decide
  · have hword : c.isAlpha = true ∨ c.isDigit = true := by
      simpa [Identifier.continues, Identifier.isLetter, Identifier.isDigit, hunderscore] using h
    have hcode : (48 ≤ c.toNat ∧ c.toNat ≤ 57) ∨ (65 ≤ c.toNat ∧ c.toNat ≤ 90) ∨
        (97 ≤ c.toNat ∧ c.toNat ≤ 122) := by
      delta Char.isAlpha Char.isUpper Char.isLower Char.isDigit at hword
      simp [UInt32.le_iff_toNat_le, Char.toNat_val] at hword
      omega
    simp [isSpace, spaceRanges]
    omega

structure Solid (text : String) : Prop where
  first : ∃ c, text.toList.head? = some c ∧ isSpace c = false
  last : ∃ c, text.toList.getLast? = some c ∧ isSpace c = false
  unbroken : '\n' ∉ text.toList

namespace Solid

variable {first last text : String}

theorem join (hfirst : Solid first) (between : String) (hbetween : '\n' ∉ between.toList)
    (hlast : Solid last) : Solid (first ++ between ++ last) := by
  obtain ⟨c, hc, hspace⟩ := hfirst.first
  obtain ⟨d, hd, hspace'⟩ := hlast.last
  refine ⟨⟨c, ?_, hspace⟩, ⟨d, ?_, hspace'⟩, ?_⟩
  · simp [hc]
  · simp [List.getLast?_append, hd]
  · simp [hfirst.unbroken, hbetween, hlast.unbroken]

theorem intercalate (separator : String) (hseparator : '\n' ∉ separator.toList)
    {texts : List String} (present : texts ≠ []) (h : ∀ text ∈ texts, Solid text) :
    Solid (separator.intercalate texts) := by
  induction texts with
  | nil => exact absurd rfl present
  | cons text texts ih =>
    rw [List.forall_mem_cons] at h
    cases texts with
    | nil => rw [String.intercalate_singleton]; exact h.1
    | cons next texts =>
      rw [String.intercalate_cons_cons]
      exact h.1.join separator hseparator (ih (List.cons_ne_nil _ _) h.2)

theorem unbroken_intercalate (separator : String) (hseparator : '\n' ∉ separator.toList)
    {texts : List String} (h : ∀ text ∈ texts, Solid text) :
    '\n' ∉ (separator.intercalate texts).toList := by
  by_cases hempty : texts = []
  · simp [hempty]
  · exact (intercalate separator hseparator hempty h).unbroken

theorem ne_empty (h : Solid text) : text ≠ "" := by
  rintro rfl
  obtain ⟨c, hc, -⟩ := h.first
  simp at hc

/-- Text without any white space. -/
theorem of_visible (present : text ≠ "") (h : ∀ c ∈ text.toList, isSpace c = false) :
    Solid text := by
  have hne : text.toList ≠ [] := by simpa using present
  refine ⟨⟨text.toList.head hne, List.head?_eq_some_head hne, h _ (List.head_mem hne)⟩,
    ⟨text.toList.getLast hne, List.getLast?_eq_some_getLast hne, h _ (List.getLast_mem hne)⟩, ?_⟩
  intro hmem
  exact absurd (h '\n' hmem) (by decide)

theorem of_valid (h : Identifier.isValid text = true) : Solid text := by
  refine of_visible ?_ fun c hc ↦
    isSpace_eq_false_of_continues (Identifier.forall_continues h c hc)
  rintro rfl
  exact absurd h (by decide)

/-- A text that can be looked at letter by letter. -/
theorem word (text : String) (present : text ≠ "" := by decide)
    (h : text.toList.all (!isSpace ·) = true := by decide) : Solid text :=
  of_visible present (by simpa using h)

theorem quoted (h : '\n' ∉ text.toList) : Solid ("\"" ++ text ++ "\"") :=
  (word "\"").join text h (word "\"")

end Solid

/-- Each line with its line feed. -/
def unlines (lines : List String) : String :=
  String.join (lines.map (· ++ "\n"))

@[simp]
theorem unlines_nil : unlines [] = "" := rfl

@[simp]
theorem unlines_cons (line : String) (lines : List String) :
    unlines (line :: lines) = line ++ "\n" ++ unlines lines := by
  simp [unlines]

@[simp]
theorem unlines_append (lines lines' : List String) :
    unlines (lines ++ lines') = unlines lines ++ unlines lines' := by
  simp [unlines]

theorem cut_append_cons {separator : Char} {stretch : List Char} (h : separator ∉ stretch)
    (rest : List Char) : cut separator (stretch ++ separator :: rest) =
      stretch :: cut separator rest := by
  induction stretch with
  | nil => rw [List.nil_append, cut, if_pos rfl]
  | cons c stretch ih =>
    rw [List.mem_cons, not_or] at h
    rw [List.cons_append, cut, if_neg (Ne.symm h.1), ih h.2, List.modifyHead_cons]

theorem pieces_unlines {lines : List String} (h : ∀ line ∈ lines, '\n' ∉ line.toList) :
    pieces '\n' (unlines lines) = lines ++ [""] := by
  induction lines with
  | nil => rfl
  | cons line lines ih =>
    rw [List.forall_mem_cons] at h
    have htoList : (unlines (line :: lines)).toList =
        line.toList ++ '\n' :: (unlines lines).toList := by simp
    rw [pieces, htoList, cut_append_cons h.1, List.map_cons, String.ofList_toList,
      List.cons_append, ← ih h.2]
    rfl

/-- A solid text at the margin, or after one tab. -/
def AtMargin (line : String) : Prop :=
  ∃ body, Solid body ∧ (line = body ∨ line = "\t" ++ body)

namespace AtMargin

variable {line text : String}

theorem of_solid (h : Solid text) : AtMargin text :=
  ⟨text, h, .inl rfl⟩

theorem tab_append (h : Solid text) : AtMargin ("\t" ++ text) :=
  ⟨text, h, .inr rfl⟩

theorem ne_empty (h : AtMargin line) : line ≠ "" := by
  obtain ⟨body, hbody, rfl | rfl⟩ := h
  · exact hbody.ne_empty
  · simp

theorem unbroken (h : AtMargin line) : '\n' ∉ line.toList := by
  obtain ⟨body, hbody, rfl | rfl⟩ := h
  · exact hbody.unbroken
  · simp [hbody.unbroken]

theorem last (h : AtMargin line) : ∃ c, line.toList.getLast? = some c ∧ isSpace c = false := by
  obtain ⟨body, hbody, rfl | rfl⟩ := h
  · exact hbody.last
  · obtain ⟨c, hc, hspace⟩ := hbody.last
    exact ⟨c, by simp [List.getLast?_cons, hc], hspace⟩

end AtMargin

/-- What is written between line feeds, and how. -/
structure Canonical (text : String) (lines : List String) : Prop where
  /-- The lines are what stands before each line feed, and nothing follows the last one. -/
  cut : pieces '\n' text = lines ++ [""]
  /-- The line feed at the end has no other before it. -/
  ended : ∃ line, lines.getLast? = some line ∧ line ≠ ""
  /-- No line ends with white space, so a line of nothing else is empty. -/
  trimmed : ∀ line ∈ lines, ∀ c, line.toList.getLast? = some c → isSpace c = false
  /-- A line that is not blank begins with something other than white space, or with one tab and
  then with something other than white space. -/
  margin : ∀ line ∈ lines, line ≠ "" → ∃ body, (line = body ∨ line = "\t" ++ body) ∧
    ∃ c, body.toList.head? = some c ∧ isSpace c = false
  /-- No blank line follows another. -/
  apart : ∀ before after, lines ≠ before ++ "" :: "" :: after

section Sections

variable {α : Type}

/-- The lines of every item, after a blank line each. -/
def sections (lines : α → List String) (items : List α) : List String :=
  items.flatMap fun item ↦ "" :: lines item

theorem sections_cons (lines : α → List String) (item : α) (items : List α) :
    sections lines (item :: items) = "" :: (lines item ++ sections lines items) :=
  List.flatMap_cons

theorem sections_append (lines : α → List String) (items items' : List α) :
    sections lines (items ++ items') = sections lines items ++ sections lines items' :=
  List.flatMap_append

theorem unlines_sections (lines : α → List String) (items : List α) :
    unlines (sections lines items) =
      String.join (items.map fun item ↦ "\n" ++ unlines (lines item)) := by
  induction items with
  | nil => rfl
  | cons item items ih =>
    rw [sections_cons, unlines_cons, unlines_append, ih]
    simp [String.append_assoc]

/-- Among sections without blank lines a blank line is where a section begins. -/
theorem sections_eq_append_iff {lines : α → List String} {items : List α}
    (h : ∀ item ∈ items, "" ∉ lines item) (before after : List String) :
    sections lines items = before ++ "" :: after ↔
      ∃ first item rest, items = first ++ item :: rest ∧ before = sections lines first ∧
        after = lines item ++ sections lines rest := by
  constructor
  · intro heq
    induction items generalizing before with
    | nil => simp [sections] at heq
    | cons item items ih =>
      rw [List.forall_mem_cons] at h
      rw [sections_cons] at heq
      cases before with
      | nil =>
        refine ⟨[], item, items, rfl, rfl, ?_⟩
        exact (List.cons.inj heq).2.symm
      | cons line before =>
        have htail : lines item ++ sections lines items = before ++ "" :: after :=
          (List.cons.inj heq).2
        -- The blank line is past the lines of the first item, which has none.
        have hpast : ∃ before', before = lines item ++ before' ∧
            sections lines items = before' ++ "" :: after := by
          rcases List.append_eq_append_iff.1 htail with
            ⟨before', hbefore, hrest⟩ | ⟨tail, hitem, hrest⟩
          · exact ⟨before', hbefore, hrest⟩
          · cases tail with
            | nil => exact ⟨[], by simpa using hitem.symm, by simpa using hrest.symm⟩
            | cons line tail =>
              obtain ⟨rfl, -⟩ := List.cons.inj hrest
              exact absurd (hitem ▸ List.mem_append_right _ List.mem_cons_self) h.1
        obtain ⟨before', rfl, hrest⟩ := hpast
        obtain ⟨first, next, rest, rfl, rfl, hafter⟩ := ih h.2 before' hrest
        have hline : line = "" := (List.cons.inj heq).1.symm
        exact ⟨item :: first, next, rest, rfl, by simp [sections_cons, hline], hafter⟩
  · rintro ⟨first, item, rest, rfl, rfl, rfl⟩
    rw [sections_append, sections_cons]

variable {lines : α → List String} {items : List α} {clause : String}

theorem forall_sections (h : ∀ item ∈ items, ∀ line ∈ lines item, AtMargin line) :
    ∀ line ∈ sections lines items, line = "" ∨ AtMargin line := by
  intro line hline
  obtain ⟨item, hitem, hline⟩ := List.mem_flatMap.1 hline
  rcases List.mem_cons.1 hline with rfl | hline
  · exact .inl rfl
  · exact .inr (h item hitem line hline)

theorem sections_ends (hclause : AtMargin clause) (present : ∀ item ∈ items, lines item ≠ [])
    (h : ∀ item ∈ items, ∀ line ∈ lines item, AtMargin line) :
    ∃ before line, clause :: sections lines items = before ++ [line] ∧ AtMargin line := by
  rcases List.eq_nil_or_concat items with rfl | ⟨init, item, rfl⟩
  · exact ⟨[], clause, rfl, hclause⟩
  · have hitem : item ∈ init.concat item := by simp
    obtain ⟨rest, line, hlines⟩ :=
      (List.eq_nil_or_concat (lines item)).resolve_left (present item hitem)
    refine ⟨clause :: sections lines init ++ "" :: rest, line, ?_, h item hitem line ?_⟩
    · simp [sections, hlines]
    · simp [hlines]

theorem sections_apart (present : ∀ item ∈ items, lines item ≠ [])
    (h : ∀ item ∈ items, "" ∉ lines item) (before after : List String) :
    sections lines items ≠ before ++ "" :: "" :: after := by
  intro heq
  obtain ⟨first, item, rest, rfl, -, hafter⟩ := (sections_eq_append_iff h before _).1 heq
  have hitem : item ∈ first ++ item :: rest := by simp
  obtain ⟨line, others, hlines⟩ := List.exists_cons_of_ne_nil (present item hitem)
  rw [hlines, List.cons_append] at hafter
  apply h item hitem
  rw [hlines, ← (List.cons.inj hafter).1]
  exact List.mem_cons_self

/-- A line with text on it and sections of such lines. -/
theorem canonical_sections (hclause : AtMargin clause) (present : ∀ item ∈ items, lines item ≠ [])
    (h : ∀ item ∈ items, ∀ line ∈ lines item, AtMargin line) :
    Canonical (unlines (clause :: sections lines items)) (clause :: sections lines items) := by
  have hlines : ∀ line ∈ clause :: sections lines items, line = "" ∨ AtMargin line :=
    List.forall_mem_cons.2 ⟨.inr hclause, forall_sections h⟩
  constructor
  · refine pieces_unlines fun line hline ↦ ?_
    rcases hlines line hline with rfl | hmargin
    · simp
    · exact hmargin.unbroken
  · obtain ⟨before, line, hends, hmargin⟩ := sections_ends hclause present h
    exact ⟨line, List.getLast?_eq_some_iff.2 ⟨before, hends⟩, hmargin.ne_empty⟩
  · intro line hline c hc
    rcases hlines line hline with rfl | hmargin
    · simp at hc
    · obtain ⟨d, hd, hspace⟩ := hmargin.last
      rw [hc, Option.some.injEq] at hd
      exact hd ▸ hspace
  · intro line hline hne
    obtain ⟨body, hbody, hmargin⟩ := (hlines line hline).resolve_left hne
    exact ⟨body, hmargin, hbody.first⟩
  · intro before after heq
    cases before with
    | nil => exact hclause.ne_empty (List.cons.inj heq).1
    | cons line before =>
      exact sections_apart present (fun item hitem hmem ↦ (h item hitem "" hmem).ne_empty rfl)
        before after (List.cons.inj heq).2

end Sections

end DeclaredSource.Text
