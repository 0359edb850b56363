import DeclaredSource.Text.Pieces

/-!
# Written forms that can be read back

A way of writing values is given together with what may follow a written value. It determines a view
of the value when two values of different views are never written alike, whatever follows, and when
the text shows where the value ends. Runs of a class of characters are determined by what stops
them, and a list of values by the mark that each of them begins with or is separated by.
-/

namespace DeclaredSource.Text

variable {α β : Type}

/-- The written form of a value, with something that may follow it, determines a view of the value
and what follows. -/
def Determines (S : α → Prop) (write : α → List Char) (view : α → β)
    (Follows : List Char → Prop) : Prop :=
  ∀ ⦃a b : α⦄, S a → S b → ∀ ⦃rest rest' : List Char⦄, Follows rest → Follows rest' →
    write a ++ rest = write b ++ rest' → view a = view b ∧ rest = rest'

/-- Nothing follows, or a character outside of the class. -/
def Stops (p : Char → Bool) (rest : List Char) : Prop :=
  ∀ c ∈ rest.head?, p c = false

/-- What follows begins with one of the characters. -/
def Opens (marks : List Char) (rest : List Char) : Prop :=
  ∃ c ∈ marks, rest.head? = some c

theorem Opens.cons {marks : List Char} {c : Char} (h : c ∈ marks) (rest : List Char) :
    Opens marks (c :: rest) :=
  ⟨c, h, rfl⟩

theorem Opens.mono {marks marks' : List Char} {rest : List Char} (h : Opens marks rest)
    (hsub : marks ⊆ marks') : Opens marks' rest := by
  obtain ⟨mark, hmark, hhead⟩ := h
  exact ⟨mark, hsub hmark, hhead⟩

theorem Opens.ne {marks : List Char} {rest : List Char} (h : Opens marks rest) {c : Char}
    (hc : c ∉ marks) : rest.head? ≠ some c := by
  obtain ⟨mark, hmark, hhead⟩ := h
  rw [hhead, ne_eq, Option.some.injEq]
  rintro rfl
  exact hc hmark

theorem Opens.stops {marks : List Char} {rest : List Char} {p : Char → Bool}
    (h : Opens marks rest) (hp : marks.any p = false) : Stops p rest := by
  obtain ⟨mark, hmark, hhead⟩ := h
  intro c hc
  rw [hhead, Option.mem_some_iff] at hc
  rw [List.any_eq_false] at hp
  exact hc ▸ Bool.eq_false_iff.2 (hp mark hmark)

/-- A run of a class of characters ends where the class does. -/
theorem run_unique {p : Char → Bool} {run run' rest rest' : List Char}
    (hrun : ∀ c ∈ run, p c = true) (hrun' : ∀ c ∈ run', p c = true)
    (hrest : Stops p rest) (hrest' : Stops p rest') (h : run ++ rest = run' ++ rest') :
    run = run' ∧ rest = rest' := by
  have longer {run rest rest' : List Char} {c : Char} (hc : p c = true) (hrest : Stops p rest)
      (h : rest = c :: run ++ rest') : False := by
    have hstop := hrest c (by rw [h]; rfl)
    rw [hc] at hstop
    exact absurd hstop (by decide)
  induction run generalizing run' with
  | nil =>
    cases run' with
    | nil => exact ⟨rfl, h⟩
    | cons c run' => exact (longer (hrun' c List.mem_cons_self) hrest h).elim
  | cons c run ih =>
    cases run' with
    | nil => exact (longer (hrun c List.mem_cons_self) hrest' h.symm).elim
    | cons c' run' =>
      obtain ⟨rfl, htail⟩ := List.cons.inj h
      have hrun := fun d hd ↦ hrun d (List.mem_cons_of_mem _ hd)
      have hrun' := fun d hd ↦ hrun' d (List.mem_cons_of_mem _ hd)
      obtain ⟨rfl, hrest⟩ := ih hrun hrun' htail
      exact ⟨rfl, hrest⟩

/-- What is quoted ends at the first quote. -/
theorem quoted_unique {quote : Char} {text text' rest rest' : List Char} (htext : quote ∉ text)
    (htext' : quote ∉ text') (h : text ++ quote :: rest = text' ++ quote :: rest') :
    text = text' ∧ rest = rest' := by
  have hrun {text : List Char} (h : quote ∉ text) : ∀ c ∈ text, (c != quote) = true := by
    intro c hc
    rw [bne_iff_ne]
    rintro rfl
    exact h hc
  have hstop (rest : List Char) : Stops (· != quote) (quote :: rest) := by simp [Stops]
  obtain ⟨hsame, hrest⟩ := run_unique (hrun htext) (hrun htext') (hstop rest) (hstop rest') h
  exact ⟨hsame, (List.cons.inj hrest).2⟩

theorem not_mem_toDigits {c : Char} (h : c.isDigit = false) (number : Nat) :
    c ∉ Nat.toDigits 10 number := by
  intro hmem
  rw [Nat.isDigit_of_mem_toDigits (by decide) (by decide) hmem] at h
  cases h

theorem toDigits_injective {number number' : Nat}
    (h : Nat.toDigits 10 number = Nat.toDigits 10 number') : number = number' := by
  calc
    number = Nat.ofDigitChars 10 (Nat.toDigits 10 number) 0 :=
      (Nat.ofDigitChars_toDigits (by decide) (by decide)).symm
    _ = Nat.ofDigitChars 10 (Nat.toDigits 10 number') 0 := by rw [h]
    _ = number' := Nat.ofDigitChars_toDigits (by decide) (by decide)

/-- A number ends before the first character that is no digit. -/
theorem toDigits_unique {number number' : Nat} {rest rest' : List Char}
    (hrest : Stops Char.isDigit rest) (hrest' : Stops Char.isDigit rest')
    (h : Nat.toDigits 10 number ++ rest = Nat.toDigits 10 number' ++ rest') :
    number = number' ∧ rest = rest' := by
  have hdigits (number : Nat) : ∀ c ∈ Nat.toDigits 10 number, c.isDigit = true :=
    fun _ ↦ Nat.isDigit_of_mem_toDigits (by decide) (by decide)
  obtain ⟨hsame, hafter⟩ := run_unique (hdigits number) (hdigits number') hrest hrest' h
  exact ⟨toDigits_injective hsame, hafter⟩

theorem opens_singleton_iff {mark : Char} {rest : List Char} :
    Opens [mark] rest ↔ rest.head? = some mark := by
  simp [Opens]

theorem Opens.append {marks text : List Char} (h : Opens marks text) (rest : List Char) :
    Opens marks (text ++ rest) := by
  obtain ⟨mark, hmark, hhead⟩ := h
  exact ⟨mark, hmark, by rw [List.head?_append, hhead, Option.some_or]⟩

/-- Values that are written one after the other, where each begins with a mark that cannot stand
after the last one. -/
theorem Determines.inSequence {S : α → Prop} {write : α → List Char} {view : α → β}
    {End : List Char → Prop} (marks : List Char)
    (h : Determines S write view fun rest ↦ End rest ∨ Opens marks rest)
    (hmark : ∀ a, S a → Opens marks (write a)) (hend : ∀ rest, End rest → ¬ Opens marks rest) :
    Determines (fun values : List α ↦ ∀ a ∈ values, S a) (·.flatMap write) (List.map view) End := by
  intro values values' hvalues hvalues' rest rest' hrest hrest' heq
  induction values generalizing values' with
  | nil =>
    cases values' with
    | nil => exact ⟨rfl, heq⟩
    | cons b values' =>
      simp only [List.flatMap_nil, List.nil_append, List.flatMap_cons, List.append_assoc] at heq
      exact absurd (heq ▸ (hmark b (hvalues' b List.mem_cons_self)).append _) (hend rest hrest)
  | cons a values ih =>
    cases values' with
    | nil =>
      simp only [List.flatMap_nil, List.nil_append, List.flatMap_cons, List.append_assoc] at heq
      exact absurd (heq ▸ (hmark a (hvalues a List.mem_cons_self)).append _) (hend rest' hrest')
    | cons b values' =>
      have hfollows {values : List α} {rest : List Char} (hvalues : ∀ a ∈ values, S a)
          (hrest : End rest) :
          End (values.flatMap write ++ rest) ∨ Opens marks (values.flatMap write ++ rest) := by
        cases values with
        | nil => exact .inl hrest
        | cons c values =>
          rw [List.flatMap_cons, List.append_assoc]
          exact .inr ((hmark c (hvalues c List.mem_cons_self)).append _)
      rw [List.forall_mem_cons] at hvalues hvalues'
      simp only [List.flatMap_cons, List.append_assoc] at heq
      obtain ⟨hview, htail⟩ := h hvalues.1 hvalues'.1 (hfollows hvalues.2 hrest)
        (hfollows hvalues'.2 hrest') heq
      obtain ⟨hviews, hends⟩ := ih hvalues.2 hvalues'.2 htail
      exact ⟨by rw [List.map_cons, List.map_cons, hview, hviews], hends⟩

theorem Determines.repeated {S : α → Prop} {write : α → List Char} {view : α → β}
    {End : List Char → Prop} (mark : Char)
    (h : Determines S write view fun rest ↦ End rest ∨ rest.head? = some mark)
    (hmark : ∀ a, S a → (write a).head? = some mark)
    (hend : ∀ rest, End rest → rest.head? ≠ some mark) :
    Determines (fun values : List α ↦ ∀ a ∈ values, S a) (·.flatMap write) (List.map view) End := by
  refine Determines.inSequence [mark] ?_ ?_ ?_
  · simpa only [opens_singleton_iff] using h
  · simpa only [opens_singleton_iff] using hmark
  · simpa only [opens_singleton_iff] using hend

/-- The first value, and the others each after a separator. -/
def separated (separator : List Char) (write : α → List Char) : List α → List Char
  | [] => []
  | first :: rest => write first ++ rest.flatMap (separator ++ write ·)

theorem Determines.separated {S : α → Prop} {write : α → List Char} {view : α → β}
    {mark : Char} {separator close : List Char}
    (h : Determines S write view (Opens (mark :: close))) (hmark : mark ∉ close)
    (hstart : ∀ a, S a → ∀ rest, ¬ Opens close (write a ++ rest)) :
    Determines (fun values : List α ↦ ∀ a ∈ values, S a)
      (Text.separated (mark :: separator) write) (List.map view) (Opens close) := by
  have hopens {rest : List Char} (hrest : Opens close rest ∨ rest.head? = some mark) :
      Opens (mark :: close) rest := by
    rcases hrest with ⟨c, hc, hhead⟩ | hhead
    · exact ⟨c, List.mem_cons_of_mem _ hc, hhead⟩
    · exact ⟨mark, List.mem_cons_self, hhead⟩
  have hothers : Determines (fun values : List α ↦ ∀ a ∈ values, S a)
      (·.flatMap (mark :: separator ++ write ·)) (List.map view) (Opens close) := by
    refine Determines.repeated mark ?_ (fun _ _ ↦ rfl) fun rest hrest ↦ hrest.ne hmark
    intro a b ha hb rest rest' hrest hrest' heq
    rw [List.append_assoc, List.append_assoc, List.append_cancel_left_eq] at heq
    exact h ha hb (hopens hrest) (hopens hrest') heq
  have hfollows {values : List α} {rest : List Char} (hrest : Opens close rest) :
      Opens (mark :: close) (values.flatMap (mark :: separator ++ write ·) ++ rest) := by
    cases values with
    | nil => exact hopens (.inl hrest)
    | cons a values => exact ⟨mark, List.mem_cons_self, rfl⟩
  intro values values' hvalues hvalues' rest rest' hrest hrest' heq
  cases values with
  | nil =>
    cases values' with
    | nil => exact ⟨rfl, heq⟩
    | cons b values' =>
      rw [Text.separated, Text.separated, List.nil_append, List.append_assoc] at heq
      exact absurd (heq ▸ hrest) (hstart b (hvalues' b List.mem_cons_self) _)
  | cons a values =>
    cases values' with
    | nil =>
      rw [Text.separated, Text.separated, List.nil_append, List.append_assoc] at heq
      exact absurd (heq ▸ hrest') (hstart a (hvalues a List.mem_cons_self) _)
    | cons b values' =>
      rw [List.forall_mem_cons] at hvalues hvalues'
      rw [Text.separated, Text.separated, List.append_assoc, List.append_assoc] at heq
      obtain ⟨hview, htail⟩ := h hvalues.1 hvalues'.1 (hfollows hrest) (hfollows hrest') heq
      obtain ⟨hviews, hends⟩ := hothers hvalues.2 hvalues'.2 hrest hrest' htail
      exact ⟨by rw [List.map_cons, List.map_cons, hview, hviews], hends⟩

end DeclaredSource.Text
