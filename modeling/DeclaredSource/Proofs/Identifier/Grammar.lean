import DeclaredSource.Proofs.Identifier
import Mathlib.Computability.Language
import Mathlib.Data.Char

/-!
# The grammar of identifiers

An identifier is a word of the grammar `[A-Za-z_][A-Za-z0-9_]*` that is not reserved. Every other
text has exactly one fault, which is the one that is reported. A digit in front is blamed whatever
stands behind it. Without one, the leftmost character outside of `[A-Za-z0-9_]` is blamed, so that
all characters before it are in order, and a text without such a character can only be reserved.
-/

namespace DeclaredSource.Identifier

open scoped Computability

variable {name : String}

def letters : Set Char :=
  Set.Icc 'A' 'Z' ∪ Set.Icc 'a' 'z' ∪ {'_'}

def digits : Set Char :=
  Set.Icc '0' '9'

/-- The texts that are a single character of the set. -/
def oneOf (chars : Set Char) : Language Char :=
  {text | ∃ c ∈ chars, text = [c]}

/-- The words that match `[A-Za-z_][A-Za-z0-9_]*`. -/
def grammar : Language Char :=
  oneOf letters * (oneOf (letters ∪ digits))∗

/-- The words of declarations, those of types and those of statements. -/
def reserved : List String :=
  ["const", "func", "import", "package", "type", "var"] ++
    ["chan", "interface", "map", "struct"] ++
    ["break", "case", "continue", "default", "defer", "else", "fallthrough", "for", "go", "goto",
      "if", "range", "return", "select", "switch"]

theorem isLetter_iff {c : Char} : isLetter c = true ↔ c ∈ letters := by
  have halpha : c.isAlpha = true ↔ c ∈ Set.Icc 'A' 'Z' ∪ Set.Icc 'a' 'z' := by
    delta Char.isAlpha Char.isUpper Char.isLower
    simp [Char.le_def]
  rw [isLetter, Bool.or_eq_true, decide_eq_true_iff, halpha, or_comm]
  exact Iff.rfl

theorem isDigit_iff {c : Char} : isDigit c = true ↔ c ∈ digits := by
  simp [isDigit, digits, Char.isDigit, Char.le_def]

theorem continues_iff {c : Char} : continues c = true ↔ c ∈ letters ∪ digits := by
  rw [continues, Bool.or_eq_true, isLetter_iff, isDigit_iff, Set.mem_union]

theorem continues_eq_false_iff {c : Char} : continues c = false ↔ c ∉ letters ∪ digits := by
  rw [← continues_iff, Bool.not_eq_true]

theorem isKeyword_iff : isKeyword name = true ↔ name ∈ reserved := by
  have hperm : keywords.Perm reserved := by decide
  rw [isKeyword, List.contains_iff_mem, hperm.mem_iff]

theorem mem_kstar_oneOf {chars : Set Char} {text : List Char} :
    text ∈ (oneOf chars)∗ ↔ ∀ c ∈ text, c ∈ chars := by
  rw [Language.mem_kstar]
  constructor
  · rintro ⟨words, rfl, hwords⟩ c hc
    obtain ⟨word, hword, hmem⟩ := List.mem_flatten.1 hc
    obtain ⟨d, hd, rfl⟩ := hwords word hword
    rwa [List.mem_singleton.1 hmem]
  · intro h
    refine ⟨text.map ([·]), by simp [← List.flatMap_def], ?_⟩
    intro word hword
    obtain ⟨c, hc, rfl⟩ := List.mem_map.1 hword
    exact ⟨c, h c hc, rfl⟩

theorem spelled_iff : Spelled name ↔ name.toList ∈ grammar := by
  rw [grammar, Language.mem_mul]
  constructor
  · rintro ⟨first, rest, hname, hletter, hrest⟩
    refine ⟨[first], ⟨first, isLetter_iff.1 hletter, rfl⟩, rest, ?_, hname.symm⟩
    exact mem_kstar_oneOf.2 fun c hc ↦ continues_iff.1 (hrest c hc)
  · rintro ⟨_, ⟨first, hletter, rfl⟩, rest, hrest, hname⟩
    refine ⟨first, rest, hname.symm, isLetter_iff.2 hletter, fun c hc ↦ ?_⟩
    exact continues_iff.2 (mem_kstar_oneOf.1 hrest c hc)

theorem isValid_iff_mem_grammar :
    isValid name = true ↔ name.toList ∈ grammar ∧ name ∉ reserved := by
  rw [isValid_iff, spelled_iff, ← isKeyword_iff, Bool.not_eq_true]

def StartsWithDigit (name : String) : Prop :=
  ∃ first rest, name.toList = first :: rest ∧ first ∈ digits

theorem startsWithDigit_iff {first : Char} {rest : List Char} (h : name.toList = first :: rest) :
    StartsWithDigit name ↔ isDigit first = true := by
  rw [isDigit_iff]
  constructor
  · rintro ⟨first', rest', hname, hdigit⟩
    rw [h] at hname
    rwa [(List.cons.inj hname).1]
  · exact fun hdigit ↦ ⟨first, rest, h, hdigit⟩

/-- What is wrong with a text that is no identifier. -/
inductive Fault (name : String) : Issue → Prop
  | empty (h : name = "") : Fault name .empty
  | leadingDigit (h : StartsWithDigit name) : Fault name .leadingDigit
  | invalidChar {before after : List Char} {culprit : Char} (hstart : ¬StartsWithDigit name)
    (h : name.toList = before ++ culprit :: after) (hbefore : ∀ c ∈ before, c ∈ letters ∪ digits)
    (hculprit : culprit ∉ letters ∪ digits) : Fault name (.invalidChar culprit)
  | keyword (h : name ∈ reserved) : Fault name .keyword

variable {issue : Issue}

/-- Each fault is reported where it is present. -/
theorem Fault.issue?_eq (h : Fault name issue) : issue? name = some issue := by
  cases h with
  | empty h =>
    rw [h]
    rfl
  | leadingDigit h =>
    obtain ⟨first, rest, hname, hdigit⟩ := h
    exact issue?_of_digit hname (isDigit_iff.2 hdigit)
  | @invalidChar before after culprit hstart h hbefore hculprit =>
    have hfind : name.toList.find? (!continues ·) = some culprit := by
      refine List.find?_eq_some_iff_append.2 ⟨?_, before, after, h, fun c hc ↦ ?_⟩
      · rw [continues_eq_false_iff.2 hculprit, Bool.not_false]
      · rw [continues_iff.2 (hbefore c hc), Bool.not_true, Bool.not_false]
    obtain ⟨first, rest, hname⟩ : ∃ first rest, name.toList = first :: rest :=
      List.exists_cons_of_ne_nil (by simp [h])
    rw [startsWithDigit_iff hname, Bool.not_eq_true] at hstart
    rw [issue?_eq_scan hname hstart, hfind]
    rfl
  | keyword h =>
    have hkeyword := isKeyword_iff.2 h
    have hspelled := spelled_of_keyword hkeyword
    -- A reserved word passes all the other checks, so nothing else is reported of it.
    have hfind : name.toList.find? (!continues ·) = none := by
      rw [List.find?_eq_none]
      intro c hc
      simp [hspelled.forall_continues c hc]
    obtain ⟨first, rest, hname, hletter, -⟩ := hspelled
    rw [issue?_eq_scan hname (isDigit_eq_false hletter), hfind, hkeyword]
    rfl

/-- Only a fault that is present is reported. -/
theorem fault_of_issue? (h : issue? name = some issue) : Fault name issue := by
  cases hname : name.toList with
  | nil =>
    rw [issue?, hname] at h
    cases h
    exact .empty (String.toList_eq_nil_iff.1 hname)
  | cons first rest =>
    cases hdigit : isDigit first with
    | true =>
      rw [issue?_of_digit hname hdigit] at h
      cases h
      exact .leadingDigit ((startsWithDigit_iff hname).2 hdigit)
    | false =>
      rw [issue?_eq_scan hname hdigit] at h
      cases hfind : name.toList.find? (!continues ·) with
      | some culprit =>
        rw [hfind] at h
        cases h
        obtain ⟨hculprit, before, after, heq, hbefore⟩ := List.find?_eq_some_iff_append.1 hfind
        have hstart : ¬StartsWithDigit name := by simp [startsWithDigit_iff hname, hdigit]
        refine .invalidChar hstart heq (fun c hc ↦ ?_) ?_
        · exact continues_iff.1 (by simpa using hbefore c hc)
        · exact continues_eq_false_iff.1 (by simpa using hculprit)
      | none =>
        rw [hfind] at h
        cases hkeyword : isKeyword name with
        | true =>
          rw [hkeyword] at h
          cases h
          exact .keyword (isKeyword_iff.1 hkeyword)
        | false =>
          rw [hkeyword] at h
          cases h

/-- A text is accepted just when it is a word of the grammar that is not reserved. The issue that is
reported of any other text is its fault, and the text has no second one. -/
theorem identifier_or_one_fault (name : String) :
    (issue? name = none ↔ name.toList ∈ grammar ∧ name ∉ reserved) ∧
      (∀ issue, issue? name = some issue ↔ Fault name issue) ∧
      (isValid name = false → ∃! issue, Fault name issue) := by
  have hfault (issue : Issue) : issue? name = some issue ↔ Fault name issue :=
    ⟨fault_of_issue?, Fault.issue?_eq⟩
  refine ⟨?_, hfault, fun hinvalid ↦ ?_⟩
  · rw [← isValid_iff_mem_grammar, isValid, Option.isNone_iff_eq_none]
  · obtain ⟨issue, hissue⟩ : ∃ issue, issue? name = some issue := by
      simpa [isValid, Option.isSome_iff_exists] using hinvalid
    refine ⟨issue, (hfault issue).1 hissue, fun other hother ↦ ?_⟩
    exact Option.some.inj (((hfault other).2 hother).symm.trans hissue)

/-- A superscript is no digit of the grammar, and the hyphen behind it is not reached. -/
theorem identifier_or_one_fault_superscript :
    isValid "x²-1" = false ∧ issue? "x²-1" = some (.invalidChar '²') ∧
      ∃! issue, Fault "x²-1" issue := by
  have hinvalid : isValid "x²-1" = false := by decide
  exact ⟨hinvalid, by decide, (identifier_or_one_fault "x²-1").2.2 hinvalid⟩

/-- The digit in front is blamed, and not the hyphen. -/
example : issue? "9-lives" = some .leadingDigit := by decide

end DeclaredSource.Identifier
