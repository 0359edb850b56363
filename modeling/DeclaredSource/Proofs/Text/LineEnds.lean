import DeclaredSource.Proofs.Text.LineDiff

/-!
# Texts with the same lines

What taking the lines of a text loses is how they end: a carriage return directly before a line
feed, and whether a line feed follows the last line. So two texts without such carriage returns
that have the same lines differ by one line feed at the end at most, and this is what the notice on
line ends says of them. It is given for other texts as well, which differ in carriage returns.
-/

namespace DeclaredSource.Text

/-- Line ends without the carriage returns that belong to them. -/
def plainChars : List Char → List Char
  | [] => []
  | c :: rest =>
    if c = '\r' ∧ rest.head? = some '\n' then plainChars rest else c :: plainChars rest

def plain (text : String) : String :=
  String.ofList (plainChars text.toList)

/-- No carriage return stands directly before a line feed. -/
def FeedsOnly (text : String) : Prop :=
  ¬ ['\r', '\n'] <:+: text.toList

theorem plain_of_feedsOnly {text : String} (h : FeedsOnly text) : plain text = text := by
  have hchars (chars : List Char) (h : ¬ ['\r', '\n'] <:+: chars) : plainChars chars = chars := by
    induction chars with
    | nil => rfl
    | cons c rest ih =>
      rw [List.infix_cons_iff, not_or] at h
      rw [plainChars, if_neg, ih h.2]
      rintro ⟨rfl, hfeed⟩
      obtain ⟨after, rfl⟩ := List.head?_eq_some_iff.1 hfeed
      exact h.1 ⟨after, rfl⟩
  rw [plain, hchars _ h, String.ofList_toList]

/-- The second text is the first one with a line feed after its last line, which has none. -/
def Completes (text ended : String) : Prop :=
  (∃ c, text.toList.getLast? = some c ∧ c ≠ '\n') ∧ ended = text ++ "\n"

/-- The lines whose line ends are line feeds alone. -/
def feedLines (text : List Char) : List (List Char) :=
  (cut '\n' text).dropLast ++ ((cut '\n' text).getLast?.filter (· ≠ [])).toList

theorem dropCarriageReturn_cons {c : Char} {line : List Char} (h : line ≠ [] ∨ c ≠ '\r') :
    dropCarriageReturn (c :: line) = c :: dropCarriageReturn line := by
  unfold dropCarriageReturn
  cases line with
  | nil => simp [h.resolve_left (by simp)]
  | cons d line =>
    rw [List.getLast?_cons_cons]
    split <;> rfl

theorem head?_of_cut {separator : Char} {text : List Char} {others : List (List Char)}
    (h : cut separator text = [] :: others) (present : others ≠ []) :
    text.head? = some separator := by
  cases text with
  | nil =>
    rw [cut] at h
    exact absurd (List.cons.inj h).2.symm present
  | cons c rest =>
    obtain ⟨first, others', hcut⟩ := List.exists_cons_of_ne_nil (cut_ne_nil separator rest)
    by_cases hc : c = separator
    · rw [List.head?_cons, hc]
    · rw [cut, if_neg hc, hcut, List.modifyHead_cons] at h
      cases h

/-- Only what follows the last line feed keeps a carriage return at its end. -/
theorem cut_plainChars (text : List Char) : cut '\n' (plainChars text) =
    (cut '\n' text).dropLast.map dropCarriageReturn ++ (cut '\n' text).getLast?.toList := by
  induction text with
  | nil => rfl
  | cons c rest ih =>
    obtain ⟨first, others, hcut⟩ := List.exists_cons_of_ne_nil (cut_ne_nil '\n' rest)
    rw [hcut] at ih
    by_cases hfeed : c = '\n'
    · subst hfeed
      rw [plainChars, if_neg (by simp), cut, if_pos rfl, cut, if_pos rfl, ih, hcut,
        List.dropLast_cons_cons, List.getLast?_cons_cons]
      rfl
    rw [plainChars, cut, if_neg hfeed, hcut, List.modifyHead_cons]
    split
    · next hreturn =>
      -- The stretch before the line feed is the carriage return alone.
      obtain ⟨rfl, hhead⟩ := hreturn
      obtain ⟨rest', rfl⟩ := List.head?_eq_some_iff.1 hhead
      rw [cut, if_pos rfl, List.cons.injEq] at hcut
      obtain ⟨rfl, hothers⟩ := hcut
      obtain ⟨second, others', rfl⟩ := List.exists_cons_of_ne_nil (hothers ▸ cut_ne_nil '\n' rest')
      rw [ih]
      rfl
    · next hkept =>
      rw [cut, if_neg hfeed, ih]
      cases others with
      | nil => rfl
      | cons second others =>
        have hline : first ≠ [] ∨ c ≠ '\r' := by
          by_contra hboth
          rw [not_or, not_not, not_not] at hboth
          obtain ⟨rfl, rfl⟩ := hboth
          exact hkept ⟨rfl, head?_of_cut hcut (by simp)⟩
        rw [List.dropLast_cons_cons, List.dropLast_cons_cons, List.map_cons, List.map_cons,
          dropCarriageReturn_cons hline, List.getLast?_cons_cons, List.getLast?_cons_cons]
        rfl

theorem lineChars_eq (text : List Char) : lineChars text = feedLines (plainChars text) := by
  obtain ⟨init, last, hcut⟩ :=
    (List.eq_nil_or_concat' (cut '\n' text)).resolve_left (cut_ne_nil '\n' text)
  rw [lineChars, feedLines, cut_plainChars, hcut]
  simp

theorem cut_append_separator (separator : Char) (text : List Char) :
    cut separator (text ++ [separator]) = cut separator text ++ [[]] := by
  induction text with
  | nil => simp [cut]
  | cons c rest ih =>
    obtain ⟨first, others, hcut⟩ := List.exists_cons_of_ne_nil (cut_ne_nil separator rest)
    rw [List.cons_append, cut, cut, ih, hcut]
    split <;> rfl

theorem cut_injective {separator : Char} {first second : List Char}
    (h : cut separator first = cut separator second) : first = second := by
  rw [← intercalate_cut separator first, h, intercalate_cut]

/-- The last stretch is empty when nothing stands behind the last separator. -/
theorem getLast?_cut {separator : Char} (text : List Char) :
    (cut separator text).getLast? = some [] ↔ text = [] ∨ text.getLast? = some separator := by
  induction text with
  | nil => simp [cut]
  | cons c rest ih =>
    obtain ⟨first, others, hcut⟩ := List.exists_cons_of_ne_nil (cut_ne_nil separator rest)
    have hlast : (c :: rest).getLast? = some separator ↔
        (rest = [] ∧ c = separator) ∨ rest.getLast? = some separator := by
      cases rest <;> simp [List.getLast?_cons_cons]
    rw [or_iff_right (by simp), hlast, cut]
    by_cases hc : c = separator
    · rw [if_pos hc, hcut, List.getLast?_cons_cons, ← hcut, ih]
      simp [hc]
    · rw [if_neg hc, hcut, List.modifyHead_cons]
      rw [hcut] at ih
      cases others with
      | cons second others =>
        rw [List.getLast?_cons_cons] at ih ⊢
        have hrest : rest ≠ [] := by
          rintro rfl
          simp [cut] at hcut
        simp [ih, hc, hrest]
      | nil =>
        have hfirst : rest = first := by
          rw [← intercalate_cut separator rest, hcut]
          simp
        subst hfirst
        have hnone : rest.getLast? ≠ some separator := fun hmem ↦
          not_mem_of_mem_cut (hcut ▸ List.mem_singleton_self rest) (List.mem_of_getLast? hmem)
        simp [hc, hnone]

theorem exists_cut (separator : Char) (text : List Char) :
    ∃ init last, cut separator text = init ++ [last] :=
  (List.eq_nil_or_concat' _).resolve_left (cut_ne_nil separator text)

theorem feedLines_of_cut {text last : List Char} {init : List (List Char)}
    (h : cut '\n' text = init ++ [last]) :
    feedLines text = if last = [] then init else init ++ [last] := by
  rw [feedLines, h, List.dropLast_concat, List.getLast?_concat]
  by_cases hlast : last = []
  · simp [hlast]
  · simp [hlast]

/-- The same lines leave open only whether the last of them is followed by a line feed. -/
theorem eq_append_of_feedLines {first second init init' last last' : List _}
    (h : cut '\n' first = init ++ [last]) (h' : cut '\n' second = init' ++ [last'])
    (hlast : last ≠ []) (hlast' : last' = []) (hlines : feedLines first = feedLines second) :
    second = first ++ ['\n'] := by
  rw [feedLines_of_cut h, feedLines_of_cut h', if_neg hlast, if_pos hlast'] at hlines
  have hcut : cut '\n' second = cut '\n' (first ++ ['\n']) := by
    rw [cut_append_separator, h, h', hlines, hlast']
  exact cut_injective hcut

theorem feedLines_eq_iff {first second : List Char} :
    feedLines first = feedLines second ↔ first = second ∨
      ((cut '\n' first).getLast? ≠ some [] ∧ second = first ++ ['\n']) ∨
        ((cut '\n' second).getLast? ≠ some [] ∧ first = second ++ ['\n']) := by
  have happend (text : List Char) (h : (cut '\n' text).getLast? ≠ some []) :
      feedLines (text ++ ['\n']) = feedLines text := by
    obtain ⟨init, last, hcut⟩ := exists_cut '\n' text
    rw [hcut, List.getLast?_concat, ne_eq, Option.some.injEq] at h
    have hended : cut '\n' (text ++ ['\n']) = init ++ [last] ++ [[]] := by
      rw [cut_append_separator, hcut]
    rw [feedLines_of_cut hended, feedLines_of_cut hcut, if_pos rfl, if_neg h]
  constructor
  · intro h
    obtain ⟨init, last, hcut⟩ := exists_cut '\n' first
    obtain ⟨init', last', hcut'⟩ := exists_cut '\n' second
    rw [hcut, hcut', List.getLast?_concat, List.getLast?_concat, ne_eq, ne_eq, Option.some.injEq,
      Option.some.injEq]
    by_cases hlast : last = [] <;> by_cases hlast' : last' = []
    · rw [feedLines_of_cut hcut, feedLines_of_cut hcut', if_pos hlast, if_pos hlast'] at h
      exact .inl (cut_injective (by rw [hcut, hcut', h, hlast, hlast']))
    · exact .inr (.inr ⟨hlast', eq_append_of_feedLines hcut' hcut hlast' hlast h.symm⟩)
    · exact .inr (.inl ⟨hlast, eq_append_of_feedLines hcut hcut' hlast hlast' h⟩)
    · rw [feedLines_of_cut hcut, feedLines_of_cut hcut', if_neg hlast, if_neg hlast'] at h
      exact .inl (cut_injective (by rw [hcut, hcut', h]))
  · rintro (rfl | ⟨hlast, rfl⟩ | ⟨hlast, rfl⟩)
    · rfl
    · exact (happend first hlast).symm
    · exact happend second hlast

theorem completes_ofList {first second : List Char} :
    Completes (String.ofList first) (String.ofList second) ↔
      (cut '\n' first).getLast? ≠ some [] ∧ second = first ++ ['\n'] := by
  rw [Completes, String.toList_ofList, ne_eq, getLast?_cut, ← String.toList_inj]
  simp only [String.toList_append, String.toList_ofList]
  refine and_congr ?_ Iff.rfl
  cases hlast : first.getLast? with
  | none => simp [List.getLast?_eq_none_iff.1 hlast]
  | some c =>
    have hpresent : first ≠ [] := by
      rintro rfl
      cases hlast
    simp [hpresent]

/-- Texts have the same lines when they are the same up to carriage returns, or when one of them
has a line feed more at its end. -/
theorem lines_eq_iff {first second : String} :
    lines first = lines second ↔ plain first = plain second ∨
      Completes (plain first) (plain second) ∨ Completes (plain second) (plain first) := by
  have hofList := List.map_injective_iff.2 fun _ _ ↦ String.ofList_injective
  rw [lines, lines, hofList.eq_iff, lineChars_eq, lineChars_eq, feedLines_eq_iff, plain, plain,
    completes_ofList, completes_ofList, String.ofList_inj]

theorem Tells.eq_nil_iff {changes : List LineChange} {old new : List String}
    (h : Tells changes old new) : changes = [] ↔ old = new := by
  constructor
  · rintro rfl
    ext index line
    rw [h.new_eq_some_iff]
    simp
  · rintro rfl
    rw [List.eq_nil_iff_forall_not_mem]
    intro change hchange
    obtain ⟨index, -, hdiffers⟩ := (h.mentions change.number).1 ⟨change, hchange, rfl⟩
    exact hdiffers rfl

/-- The notice stands for the empty list of changes, and nothing else is written like it. -/
theorem lineDiff_eq_notice_iff {current desired : String} (h : current ≠ desired) :
    lineDiff current desired = some lineEndNotice ↔ lines current = lines desired := by
  obtain ⟨changes, hdiff, htells, hunbroken⟩ := exists_tells h
  rw [hdiff, Option.some.injEq, ← htells.eq_nil_iff]
  constructor
  · intro hnotice
    exact differenceText_injective hunbroken (by simp) hnotice
  · rintro rfl
    rfl

/-- Different texts are noticed to differ in a line feed at the end when that is how they differ
once the carriage returns of their line ends are left out, or when they differ in those only. So the
notice is true of texts that have no such carriage returns. -/
theorem lineDiff_notice_iff {current desired : String} (h : current ≠ desired) :
    (lineDiff current desired = some lineEndNotice ↔ plain current = plain desired ∨
      Completes (plain current) (plain desired) ∨ Completes (plain desired) (plain current)) ∧
    (FeedsOnly current → FeedsOnly desired → lineDiff current desired = some lineEndNotice →
      Completes current desired ∨ Completes desired current) := by
  have hiff := (lineDiff_eq_notice_iff h).trans lines_eq_iff
  refine ⟨hiff, fun hcurrent hdesired hnotice ↦ ?_⟩
  have hplain := hiff.1 hnotice
  rw [plain_of_feedsOnly hcurrent, plain_of_feedsOnly hdesired] at hplain
  exact hplain.resolve_left h

/-- A carriage return inside a line is no matter. -/
theorem lineDiff_notice_unfinished :
    "package a\rb" ≠ "package a\rb\n" ∧
      lineDiff "package a\rb" "package a\rb\n" = some lineEndNotice ∧
      (Completes "package a\rb" "package a\rb\n" ∨ Completes "package a\rb\n" "package a\rb") := by
  have hne : "package a\rb" ≠ "package a\rb\n" := by decide
  have hnotice : lineDiff "package a\rb" "package a\rb\n" = some lineEndNotice := by decide
  have hcurrent : FeedsOnly "package a\rb" := by simp [FeedsOnly, List.infix_cons_iff]
  have hdesired : FeedsOnly "package a\rb\n" := by simp [FeedsOnly, List.infix_cons_iff]
  exact ⟨hne, hnotice, (lineDiff_notice_iff hne).2 hcurrent hdesired hnotice⟩

/-- The first line ends differently and the texts have the same end, so neither is the other one
with a line feed after it. -/
theorem lineDiff_notice_of_carriage_return :
    let current := "package lib\r\n\nfunc f() \x7b\x7d\n"
    let desired := "package lib\n\nfunc f() \x7b\x7d\n"
    current ≠ desired ∧ lineDiff current desired = some lineEndNotice ∧
      desired ≠ current ++ "\n" ∧ current ≠ desired ++ "\n" := by
  decide

end DeclaredSource.Text
