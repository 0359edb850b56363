import DeclaredSource.Proofs.Text.Determined
import DeclaredSource.Proofs.Text.Solid
import DeclaredSource.Text.LineDiff
import Mathlib.Data.List.Basic

/-!
# Differences lose no line

The changes from one list of lines to another are told by position: what stands where the lists
differ, on either side, in order. They can be read back from the text that they are written as,
whatever the lines hold, because each is one line of that text and begins with its mark and number.
So a difference and the lines of either text give the lines of the other.
-/

namespace DeclaredSource.Text

namespace LineChange

def number : LineChange → Nat
  | removed number _ | added number _ => number

def line : LineChange → String
  | removed _ line | added _ line => line

def mark : LineChange → String
  | removed _ _ => "-"
  | added _ _ => "+"

/-- At an earlier line, or taken away from the line where the other is put. -/
inductive Precedes : LineChange → LineChange → Prop
  | earlier {first second : LineChange} (h : first.number < second.number) :
    Precedes first second
  | replaced (number : Nat) (old new : String) : Precedes (removed number old) (added number new)

end LineChange

open LineChange

/-- The changes are those from the old lines to the new ones, a missing line differing from every
line: one side or both of every position where the lines differ, and of no other, in order. -/
structure Tells (changes : List LineChange) (old new : List String) : Prop where
  mentions : ∀ number, (∃ change ∈ changes, change.number = number) ↔
    ∃ index, number = index + 1 ∧ old[index]? ≠ new[index]?
  removed : ∀ index line, removed (index + 1) line ∈ changes ↔
    old[index]? = some line ∧ new[index]? ≠ some line
  added : ∀ index line, added (index + 1) line ∈ changes ↔
    new[index]? = some line ∧ old[index]? ≠ some line
  ordered : changes.Pairwise Precedes

section Position

variable {number number' : Nat} {line : String} {old new : Option String}

theorem removed_mem_changesAt : removed number' line ∈ changesAt number old new ↔
    number' = number ∧ old = some line ∧ new ≠ some line := by
  unfold changesAt
  cases old <;> cases new <;> grind

theorem added_mem_changesAt : added number' line ∈ changesAt number old new ↔
    number' = number ∧ new = some line ∧ old ≠ some line := by
  unfold changesAt
  cases old <;> cases new <;> grind

theorem number_of_mem_changesAt {change : LineChange} (h : change ∈ changesAt number old new) :
    change.number = number := by
  cases change with
  | removed number' line => exact (removed_mem_changesAt.1 h).1
  | added number' line => exact (added_mem_changesAt.1 h).1

theorem changesAt_eq_nil_iff : changesAt number old new = [] ↔ old = new := by
  unfold changesAt
  cases old <;> cases new <;> simp

theorem pairwise_changesAt : (changesAt number old new).Pairwise Precedes := by
  unfold changesAt
  by_cases hsame : old = new
  · rw [if_pos hsame]
    exact .nil
  · rw [if_neg hsame]
    cases old <;> cases new <;> simp [Precedes.replaced]

end Position

theorem getD_zipWithAll (old new : List String) (index : Nat) :
    ((old.zipWithAll Prod.mk new)[index]?).getD (none, none) = (old[index]?, new[index]?) := by
  rw [List.getElem?_zipWithAll]
  cases hold : old[index]? <;> cases hnew : new[index]? <;> simp

/-- A position past the end of both lists contributes nothing. -/
theorem mem_lineChanges {change : LineChange} {old new : List String} :
    change ∈ lineChanges old new ↔
      ∃ index, change ∈ changesAt (index + 1) old[index]? new[index]? := by
  unfold lineChanges
  simp only [List.mem_flatMap, List.mem_zipIdx_iff_le_and_getElem?_sub]
  constructor
  · intro h
    obtain ⟨⟨sides, number⟩, ⟨hnumber, hget⟩, hchange⟩ := h
    have hsides := getD_zipWithAll old new (number - 1)
    rw [hget, Option.getD_some] at hsides
    refine ⟨number - 1, ?_⟩
    rw [Nat.sub_add_cancel hnumber]
    rwa [hsides] at hchange
  · intro h
    obtain ⟨index, hchange⟩ := h
    have hsides := getD_zipWithAll old new index
    cases hget : (old.zipWithAll Prod.mk new)[index]? with
    | some sides =>
      rw [hget, Option.getD_some] at hsides
      exact ⟨(sides, index + 1), ⟨Nat.le_add_left 1 index, hget⟩, hsides ▸ hchange⟩
    | none =>
      rw [hget, Option.getD_none, Prod.mk.injEq] at hsides
      rw [← hsides.1, ← hsides.2] at hchange
      cases hchange

theorem pairwise_lineChanges (old new : List String) :
    (lineChanges old new).Pairwise Precedes := by
  have hnumbers : ((old.zipWithAll Prod.mk new).zipIdx 1).Pairwise fun a b ↦ a.2 < b.2 := by
    rw [← List.pairwise_map (f := Prod.snd) (R := (· < ·)), List.zipIdx_map_snd]
    exact List.pairwise_lt_range'
  unfold lineChanges
  rw [List.pairwise_flatMap]
  refine ⟨fun _ _ ↦ pairwise_changesAt, hnumbers.imp fun hlt first hfirst second hsecond ↦ ?_⟩
  apply Precedes.earlier
  rw [number_of_mem_changesAt hfirst, number_of_mem_changesAt hsecond]
  exact hlt

theorem lineChanges_tells (old new : List String) : Tells (lineChanges old new) old new := by
  constructor
  · intro number
    constructor
    · intro h
      obtain ⟨change, hchange, hnumber⟩ := h
      obtain ⟨index, hchange⟩ := mem_lineChanges.1 hchange
      refine ⟨index, hnumber ▸ number_of_mem_changesAt hchange, fun hsame ↦ ?_⟩
      exact List.ne_nil_of_mem hchange (changesAt_eq_nil_iff.2 hsame)
    · intro h
      obtain ⟨index, hnumber, hne⟩ := h
      obtain ⟨change, hchange⟩ := List.exists_mem_of_ne_nil (changesAt (index + 1) _ _)
        (mt changesAt_eq_nil_iff.1 hne)
      exact ⟨change, mem_lineChanges.2 ⟨index, hchange⟩,
        hnumber ▸ number_of_mem_changesAt hchange⟩
  · intro index line
    simp only [mem_lineChanges, removed_mem_changesAt, Nat.add_right_cancel_iff]
    simp
  · intro index line
    simp only [mem_lineChanges, added_mem_changesAt, Nat.add_right_cancel_iff]
    simp
  · exact pairwise_lineChanges old new

namespace Tells

variable {changes : List LineChange} {old old' new new' : List String}

/-- A line of the new list is put there, or it is an old one that is not taken away. -/
theorem new_eq_some_iff (h : Tells changes old new) (index : Nat) (line : String) :
    new[index]? = some line ↔ .added (index + 1) line ∈ changes ∨
      old[index]? = some line ∧ .removed (index + 1) line ∉ changes := by
  rw [h.added, h.removed]
  grind

theorem old_eq_some_iff (h : Tells changes old new) (index : Nat) (line : String) :
    old[index]? = some line ↔ .removed (index + 1) line ∈ changes ∨
      new[index]? = some line ∧ .added (index + 1) line ∉ changes := by
  rw [h.added, h.removed]
  grind

theorem new_unique (h : Tells changes old new) (h' : Tells changes old new') : new = new' := by
  ext index line
  rw [h.new_eq_some_iff, h'.new_eq_some_iff]

theorem old_unique (h : Tells changes old new) (h' : Tells changes old' new) : old = old' := by
  ext index line
  rw [h.old_eq_some_iff, h'.old_eq_some_iff]

end Tells

/-- A change's text without its line feed. -/
def LineChange.entry (change : LineChange) : String :=
  change.mark ++ lineNumber change.number ++ " | " ++ change.line

theorem LineChange.text_eq (change : LineChange) : change.text = change.entry ++ "\n" := by
  cases change <;> rfl

theorem changesText_eq_unlines (changes : List LineChange) :
    changesText changes = unlines (changes.map entry) := by
  rw [changesText, unlines, List.map_map]
  exact congrArg String.join (List.map_congr_left fun change _ ↦ change.text_eq)

theorem toList_lineNumber (number : Nat) : (lineNumber number).toList =
    List.replicate (4 - (Nat.toDigits 10 number).length) ' ' ++ Nat.toDigits 10 number := by
  rw [lineNumber, Nat.toString_eq_ofList_toDigits, String.toList_ofList, String.toList_ofList,
    List.leftpad]

/-- A number begins after the blanks before it and ends before the first other character. -/
theorem lineNumber_unique {number number' : Nat} {rest rest' : List Char}
    (hrest : Stops Char.isDigit rest) (hrest' : Stops Char.isDigit rest')
    (h : (lineNumber number).toList ++ rest = (lineNumber number').toList ++ rest') :
    number = number' ∧ rest = rest' := by
  have hblanks (count : Nat) : ∀ c ∈ List.replicate count ' ', (c == ' ') = true := by simp
  have hfirst (number : Nat) (rest : List Char) :
      Stops (· == ' ') (Nat.toDigits 10 number ++ rest) := by
    intro c hc
    rw [List.head?_append_of_ne_nil _ Nat.toDigits_ne_nil] at hc
    rw [beq_eq_false_iff_ne]
    rintro rfl
    exact not_mem_toDigits (by decide) number (List.mem_of_mem_head? hc)
  rw [toList_lineNumber, toList_lineNumber, List.append_assoc, List.append_assoc] at h
  obtain ⟨-, htext⟩ := run_unique (hblanks _) (hblanks _) (hfirst _ _) (hfirst _ _) h
  exact toDigits_unique hrest hrest' htext

theorem LineChange.toList_entry (change : LineChange) : change.entry.toList =
    change.mark.toList ++ ((lineNumber change.number).toList ++ ' ' :: '|' :: ' ' ::
      change.line.toList) := by
  simp [entry]

theorem LineChange.entry_injective {change change' : LineChange}
    (h : change.entry = change'.entry) : change = change' := by
  have hstop (rest : List Char) : Stops Char.isDigit (' ' :: rest) := by simp [Stops]
  rw [← String.toList_inj, toList_entry, toList_entry] at h
  have hnumbered : change.mark = change'.mark ∧ (lineNumber change.number).toList ++
      ' ' :: '|' :: ' ' :: change.line.toList = (lineNumber change'.number).toList ++
        ' ' :: '|' :: ' ' :: change'.line.toList := by
    cases change <;> cases change' <;> simp_all [mark]
  obtain ⟨hnumber, hafter⟩ := lineNumber_unique (hstop _) (hstop _) hnumbered.2
  have hline : change.line = change'.line := by simpa [String.toList_inj] using hafter
  cases change <;> cases change' <;> simp_all [mark, LineChange.number, line]

/-- A change without a line feed in its line. -/
def LineChange.Unbroken (change : LineChange) : Prop :=
  '\n' ∉ change.line.toList

theorem LineChange.Unbroken.entry {change : LineChange} (h : change.Unbroken) :
    '\n' ∉ change.entry.toList := by
  have hdigits : '\n' ∉ Nat.toDigits 10 change.number := not_mem_toDigits (by decide) _
  have hmark : '\n' ∉ change.mark.toList := by cases change <;> simp [mark]
  rw [toList_entry, toList_lineNumber]
  simp [hmark, hdigits]
  exact h

/-- What is written of changes, and of none. -/
def differenceText (changes : List LineChange) : String :=
  if changes = [] then lineEndNotice else changesText changes

theorem lineDiff_eq {current desired : String} (h : current ≠ desired) :
    lineDiff current desired =
      some (differenceText (lineChanges (lines current) (lines desired))) := by
  rw [lineDiff, if_neg h, differenceText]
  cases lineChanges (lines current) (lines desired) <;> simp

def noticeLine : String := "~      | trailing newline differs"

theorem entry_ne_noticeLine (change : LineChange) : change.entry ≠ noticeLine := by
  rw [ne_eq, ← String.toList_inj, toList_entry]
  cases change <;> simp [mark, noticeLine]

def differenceLines (changes : List LineChange) : List String :=
  if changes = [] then [noticeLine] else changes.map entry

theorem differenceText_eq_unlines (changes : List LineChange) :
    differenceText changes = unlines (differenceLines changes) := by
  unfold differenceText differenceLines
  split
  · rfl
  · exact changesText_eq_unlines changes

theorem differenceLines_injective {changes changes' : List LineChange}
    (h : differenceLines changes = differenceLines changes') : changes = changes' := by
  unfold differenceLines at h
  have hnotice (changes : List LineChange) : [noticeLine] ≠ changes.map entry := by
    intro heq
    obtain ⟨change, -, hentry⟩ := List.mem_map.1 (heq ▸ List.mem_singleton_self noticeLine)
    exact entry_ne_noticeLine change hentry
  split at h <;> split at h
  · next hnone hnone' => rw [hnone, hnone']
  · exact absurd h (hnotice changes')
  · exact absurd h.symm (hnotice changes)
  · exact List.map_injective_iff.2 (fun _ _ ↦ entry_injective) h

/-- Changes are read back from their text when no line of theirs holds a line feed. -/
theorem differenceText_injective {changes changes' : List LineChange}
    (h : ∀ change ∈ changes, change.Unbroken) (h' : ∀ change ∈ changes', change.Unbroken)
    (heq : differenceText changes = differenceText changes') : changes = changes' := by
  have hlines {changes : List LineChange} (h : ∀ change ∈ changes, change.Unbroken) :
      ∀ line ∈ differenceLines changes, '\n' ∉ line.toList := by
    unfold differenceLines
    split
    · simp [noticeLine]
    · rw [List.forall_mem_map]
      exact fun change hchange ↦ (h change hchange).entry
  apply differenceLines_injective
  rw [differenceText_eq_unlines, differenceText_eq_unlines] at heq
  have hpieces := congrArg (pieces '\n') heq
  rwa [pieces_unlines (hlines h), pieces_unlines (hlines h'), List.append_cancel_right_eq]
    at hpieces

theorem unbroken_of_mem_lines {text line : String} (h : line ∈ lines text) :
    '\n' ∉ line.toList := by
  have hstretch {stretch : List Char} (h : stretch ∈ lineChars text.toList) : '\n' ∉ stretch := by
    unfold lineChars at h
    rw [List.mem_append, List.mem_map, Option.mem_toList, Option.filter_eq_some_iff] at h
    rcases h with ⟨whole, hwhole, rfl⟩ | ⟨hlast, -⟩
    · have hnone := not_mem_of_mem_cut (List.dropLast_subset _ hwhole)
      unfold dropCarriageReturn
      split
      · exact fun hmem ↦ hnone (List.dropLast_subset _ hmem)
      · exact hnone
    · exact not_mem_of_mem_cut (List.mem_of_mem_getLast? hlast)
  obtain ⟨stretch, hmem, rfl⟩ := List.mem_map.1 h
  rw [String.toList_ofList]
  exact hstretch hmem

theorem Tells.unbroken {changes : List LineChange} {old new : List String}
    (h : Tells changes old new) (hold : ∀ line ∈ old, '\n' ∉ line.toList)
    (hnew : ∀ line ∈ new, '\n' ∉ line.toList) : ∀ change ∈ changes, change.Unbroken := by
  intro change hchange
  obtain ⟨index, hnumber, -⟩ := (h.mentions change.number).1 ⟨change, hchange, rfl⟩
  cases change with
  | removed number line =>
    obtain rfl : number = index + 1 := hnumber
    exact hold line (List.mem_of_getElem? ((h.removed index line).1 hchange).1)
  | added number line =>
    obtain rfl : number = index + 1 := hnumber
    exact hnew line (List.mem_of_getElem? ((h.added index line).1 hchange).1)

theorem exists_tells {current desired : String} (h : current ≠ desired) :
    ∃ changes, lineDiff current desired = some (differenceText changes) ∧
      Tells changes (lines current) (lines desired) ∧ ∀ change ∈ changes, change.Unbroken :=
  have htells := lineChanges_tells (lines current) (lines desired)
  ⟨_, lineDiff_eq h, htells, htells.unbroken (fun _ ↦ unbroken_of_mem_lines)
    fun _ ↦ unbroken_of_mem_lines⟩

/-- Changes with one text are the same. -/
theorem changes_unique {current desired current' desired' : String} (h : current ≠ desired)
    (h' : current' ≠ desired') (hsame : lineDiff current desired = lineDiff current' desired') :
    ∃ changes, Tells changes (lines current) (lines desired) ∧
      Tells changes (lines current') (lines desired') := by
  obtain ⟨changes, hdiff, htells, hunbroken⟩ := exists_tells h
  obtain ⟨changes', hdiff', htells', hunbroken'⟩ := exists_tells h'
  rw [hdiff, hdiff', Option.some.injEq] at hsame
  obtain rfl := differenceText_injective hunbroken hunbroken' hsame
  exact ⟨changes, htells, htells'⟩

/-- The difference of two texts is the text of the changes from the lines of one to the lines of
the other, and of no other changes. With it the lines of either text give those of the other. -/
theorem lineDiff_lossless {current desired : String} (h : current ≠ desired) :
    (∃ changes, lineDiff current desired = some (differenceText changes) ∧
        Tells changes (lines current) (lines desired) ∧
        ∀ changes', (∀ change ∈ changes', change.Unbroken) →
          differenceText changes' = differenceText changes → changes' = changes) ∧
      (∀ desired', current ≠ desired' → lineDiff current desired = lineDiff current desired' →
        lines desired = lines desired') ∧
      ∀ current', current' ≠ desired → lineDiff current desired = lineDiff current' desired →
        lines current = lines current' := by
  refine ⟨?_, ?_, ?_⟩
  · obtain ⟨changes, hdiff, htells, hunbroken⟩ := exists_tells h
    exact ⟨changes, hdiff, htells, fun changes' hunbroken' heq ↦
      differenceText_injective hunbroken' hunbroken heq⟩
  · intro desired' h' hsame
    obtain ⟨changes, htells, htells'⟩ := changes_unique h h' hsame
    exact htells.new_unique htells'
  · intro current' h' hsame
    obtain ⟨changes, htells, htells'⟩ := changes_unique h h' hsame
    exact htells.old_unique htells'

/-- Lines that look like changes, and texts that end their lines differently. -/
theorem lineDiff_lossless_lookalike :
    "-   1 | a\n" ≠ "b\r\nc" ∧ "-   1 | a\n" ≠ "b\nc\n" ∧
      lineDiff "-   1 | a\n" "b\r\nc" = some "-   1 | -   1 | a\n+   1 | b\n+   2 | c\n" ∧
      lineDiff "-   1 | a\n" "b\r\nc" = lineDiff "-   1 | a\n" "b\nc\n" ∧
      lines "b\r\nc" = lines "b\nc\n" := by
  have hne : "-   1 | a\n" ≠ "b\r\nc" := by decide
  have hne' : "-   1 | a\n" ≠ "b\nc\n" := by decide
  have hsame : lineDiff "-   1 | a\n" "b\r\nc" = lineDiff "-   1 | a\n" "b\nc\n" := by decide
  obtain ⟨-, hdesired, -⟩ := lineDiff_lossless hne
  exact ⟨hne, hne', by decide, hsame, hdesired "b\nc\n" hne' hsame⟩

end DeclaredSource.Text
