import DeclaredSource.Identifier

/-!
# The shape of identifiers

An identifier is a letter followed by letters and digits, and no keyword. Letters and digits are
apart, so the first character of a text tells an identifier from a number. Behind the check for a
leading digit, the checks of a text are one scan for a character that may not stand in it.
-/

namespace DeclaredSource.Identifier

theorem isDigit_eq_false {c : Char} (h : isLetter c = true) : isDigit c = false := by
  by_cases hunderscore : c = '_'
  · rw [hunderscore]
    decide
  · have halpha : c.isAlpha = true := by simpa [isLetter, hunderscore] using h
    delta Char.isAlpha Char.isUpper Char.isLower at halpha
    rw [isDigit, Char.isDigit]
    simp [UInt32.le_iff_toNat_le] at halpha ⊢
    omega

theorem isLetter_eq_false {c : Char} (h : isDigit c = true) : isLetter c = false := by
  cases hletter : isLetter c with
  | false => rfl
  | true =>
    rw [isDigit_eq_false hletter] at h
    cases h

theorem continues_of_letter {c : Char} (h : isLetter c = true) : continues c = true := by
  rw [continues, h, Bool.true_or]

theorem continues_of_digit {c : Char} (h : isDigit c = true) : continues c = true := by
  rw [continues, h, Bool.or_true]

variable {name : String}

theorem issue?_of_digit {first : Char} {rest : List Char} (h : name.toList = first :: rest)
    (hdigit : isDigit first = true) : issue? name = some .leadingDigit := by
  rw [issue?, h]
  exact if_pos hdigit

/-- A first character that is no digit is treated like every other one: if it may not stand in
front, it is also the first that may not stand further back. -/
theorem issue?_eq_scan {first : Char} {rest : List Char} (h : name.toList = first :: rest)
    (hdigit : isDigit first = false) :
    issue? name = ((name.toList.find? (!continues ·)).map .invalidChar).or
      (if isKeyword name then some .keyword else none) := by
  rw [issue?, h, List.find?_cons]
  cases hletter : isLetter first with
  | true =>
    simp only [hdigit, hletter, continues_of_letter hletter, Bool.not_true, Bool.false_eq_true,
      if_false]
    cases rest.find? (!continues ·) <;> rfl
  | false =>
    have hcontinues : continues first = false := by rw [continues, hletter, hdigit, Bool.or_false]
    simp [hdigit, hletter, hcontinues]

/-- The text is a letter and then letters and digits in any number. -/
def Spelled (name : String) : Prop :=
  ∃ first rest, name.toList = first :: rest ∧ isLetter first = true ∧
    ∀ c ∈ rest, continues c = true

theorem Spelled.forall_continues (h : Spelled name) : ∀ c ∈ name.toList, continues c = true := by
  obtain ⟨first, rest, hname, hletter, hrest⟩ := h
  rw [hname, List.forall_mem_cons]
  exact ⟨continues_of_letter hletter, hrest⟩

theorem Spelled.ne_nil (h : Spelled name) : name.toList ≠ [] := by
  obtain ⟨first, rest, hname, -⟩ := h
  simp [hname]

theorem isValid_iff : isValid name = true ↔ Spelled name ∧ isKeyword name = false := by
  rw [isValid, Spelled]
  cases hname : name.toList with
  | nil => simp [issue?, hname]
  | cons first rest =>
    cases hdigit : isDigit first with
    | true =>
      rw [issue?_of_digit hname hdigit]
      simp [isLetter_eq_false hdigit]
    | false =>
      have hfirst : continues first = isLetter first := by rw [continues, hdigit, Bool.or_false]
      rw [issue?_eq_scan hname hdigit, hname]
      simp [hfirst, and_assoc]

theorem exists_letter (h : isValid name = true) :
    ∃ first rest, name.toList = first :: rest ∧ isLetter first = true := by
  obtain ⟨first, rest, hname, hletter, -⟩ := (isValid_iff.1 h).1
  exact ⟨first, rest, hname, hletter⟩

theorem forall_continues (h : isValid name = true) : ∀ c ∈ name.toList, continues c = true :=
  (isValid_iff.1 h).1.forall_continues

theorem not_mem_of_valid {c : Char} (h : isValid name = true) (hc : continues c = false) :
    c ∉ name.toList := by
  intro hmem
  have hcontinues := forall_continues h c hmem
  rw [hc] at hcontinues
  cases hcontinues

/-- Only being reserved keeps a reserved word from being an identifier. -/
theorem spelled_of_keyword (h : isKeyword name = true) : Spelled name := by
  have hkeywords : keywords.all (fun keyword ↦
      keyword.toList.head?.any isLetter && keyword.toList.tail.all continues) = true := by decide
  have hname := List.all_eq_true.1 hkeywords name (by simpa [isKeyword] using h)
  rw [Spelled]
  cases hchars : name.toList with
  | nil => simp [hchars] at hname
  | cons first rest => exact ⟨first, rest, rfl, by simpa [hchars] using hname⟩

end DeclaredSource.Identifier
