import DeclaredSource.Proofs.Source.Legible

/-!
# The layout of a legible statement determines it

The layout of a name, literal, expression or statement, with something that may follow it,
determines it and what follows. Names and numbers end before the first other character, strings at
their quote, and everything else by the mark that follows it or that it begins with.
-/

namespace DeclaredSource.Source

open Text Identifier

theorem stops_cons {c : Char} (h : continues c = false) (rest : List Char) :
    Stops continues (c :: rest) := by
  simp [Stops, h]

theorem name_unique {name name' : String} (h : isValid name = true) (h' : isValid name' = true)
    {rest rest' : List Char} (hrest : Stops continues rest) (hrest' : Stops continues rest')
    (heq : name.toList ++ rest = name'.toList ++ rest') : name = name' ∧ rest = rest' := by
  obtain ⟨hname, htail⟩ :=
    run_unique (forall_continues h) (forall_continues h') hrest hrest' heq
  exact ⟨String.toList_inj.1 hname, htail⟩

/-- Whether a text begins with a letter, if it begins with anything. -/
def letterFirst (text : List Char) : Option Bool :=
  text.head?.map isLetter

theorem letterFirst_append {text : List Char} {letter : Bool}
    (h : letterFirst text = some letter) (rest : List Char) :
    letterFirst (text ++ rest) = some letter := by
  obtain ⟨c, hhead, hletter⟩ := Option.map_eq_some_iff.1 h
  rw [letterFirst, List.head?_append, hhead, Option.some_or, Option.map_some, hletter]

theorem letterFirst_name {name : String} (h : isValid name = true) :
    letterFirst name.toList = some true := by
  obtain ⟨first, rest, hname, hletter⟩ := exists_letter h
  rw [letterFirst, hname, List.head?_cons, Option.map_some, hletter]

/-- A text that begins with a letter is not one that begins with something else. -/
theorem ne_of_letterFirst {text text' : List Char} (h : letterFirst text = some true)
    (h' : letterFirst text' = some false) {rest rest' : List Char} :
    text ++ rest ≠ text' ++ rest' := by
  intro heq
  have hsame := letterFirst_append h rest
  rw [heq, letterFirst_append h' rest'] at hsame
  cases hsame

theorem exists_digit {text : String} (present : text ≠ "")
    (digits : ∀ c ∈ text.toList, isDigit c = true) :
    ∃ first rest, text.toList = first :: rest ∧ isDigit first = true := by
  obtain ⟨first, rest, htext⟩ : ∃ first rest, text.toList = first :: rest :=
    List.exists_cons_of_ne_nil (by simpa using present)
  exact ⟨first, rest, htext, digits first (by rw [htext]; exact List.mem_cons_self)⟩

/-- The text begins as a name, a number or a string does. -/
def Leads (text : List Char) : Prop :=
  ∃ c ∈ text.head?, continues c = true ∨ c = '"'

theorem Leads.append {text : List Char} (h : Leads text) (rest : List Char) :
    Leads (text ++ rest) := by
  obtain ⟨c, hhead, hc⟩ := h
  refine ⟨c, ?_, hc⟩
  rw [List.head?_append, Option.mem_def.1 hhead, Option.some_or]
  rfl

theorem Leads.not_opens {text : List Char} (h : Leads text) {close : List Char}
    (hclose : close.any (fun c ↦ continues c || c == '"') = false) : ¬ Opens close text := by
  obtain ⟨c, hhead, hc⟩ := h
  rintro ⟨mark, hmark, hopens⟩
  rw [hopens, Option.mem_some_iff] at hhead
  subst hhead
  refine List.any_eq_false.1 hclose mark hmark ?_
  rcases hc with hc | hc
  · rw [hc, Bool.true_or]
  · rw [hc, beq_self_eq_true, Bool.or_true]

theorem Leads.ne_empty {text : String} (h : Leads text.toList) : text ≠ "" := by
  rintro rfl
  obtain ⟨c, hhead, -⟩ := h
  cases hhead

theorem leads_of_letterFirst {text : List Char} (h : letterFirst text = some true) :
    Leads text := by
  obtain ⟨c, hhead, hletter⟩ := Option.map_eq_some_iff.1 h
  exact ⟨c, hhead, .inl (continues_of_letter hletter)⟩

theorem Literal.leads {lit : Literal} (h : lit.Legible) : Leads lit.text.toList := by
  cases h with
  | int present digits =>
    obtain ⟨first, rest, htext, hdigit⟩ := exists_digit present digits
    exact ⟨first, by rw [htext]; rfl, .inl (continues_of_digit hdigit)⟩
  | string unquoted => exact ⟨'"', by simp, .inr rfl⟩

theorem Literal.letterFirst {lit : Literal} (h : lit.Legible) :
    letterFirst lit.text.toList = some false := by
  cases h with
  | int present digits =>
    obtain ⟨first, rest, htext, hdigit⟩ := exists_digit present digits
    simp [Source.letterFirst, htext, isLetter_eq_false hdigit]
  | string unquoted => simp [Source.letterFirst, isLetter]

theorem toList_quoted (text : String) (rest : List Char) :
    ("\"" ++ text ++ "\"").toList ++ rest = '"' :: (text.toList ++ '"' :: rest) := by
  simp

theorem Literal.unique :
    Determines Literal.Legible (fun lit ↦ lit.text.toList) id (Stops continues) := by
  have hnumber {text : String} (present : text ≠ "") (digits : ∀ c ∈ text.toList, isDigit c = true)
      (quoted : String) (rest rest' : List Char) :
      text.toList ++ rest ≠ ("\"" ++ quoted ++ "\"").toList ++ rest' := by
    rw [toList_quoted]
    obtain ⟨first, tail, htext, hdigit⟩ := exists_digit present digits
    rw [htext, List.cons_append]
    intro heq
    rw [(List.cons.inj heq).1] at hdigit
    cases hdigit
  have hcontinues {text : String} (digits : ∀ c ∈ text.toList, isDigit c = true) :
      ∀ c ∈ text.toList, continues c = true :=
    fun c hc ↦ continues_of_digit (digits c hc)
  intro a b ha hb rest rest' hrest hrest' heq
  cases ha with
  | int present digits =>
    cases hb with
    | int present' digits' =>
      obtain ⟨hsame, htail⟩ :=
        run_unique (hcontinues digits) (hcontinues digits') hrest hrest' heq
      rw [String.toList_inj] at hsame
      exact ⟨by rw [hsame], htail⟩
    | string unquoted => exact (hnumber present digits _ rest rest' heq).elim
  | string unquoted =>
    cases hb with
    | int present digits => exact (hnumber present digits _ rest' rest heq.symm).elim
    | string unquoted' =>
      dsimp only at heq
      rw [toList_quoted, toList_quoted, List.cons.injEq] at heq
      obtain ⟨hsame, htail⟩ := quoted_unique unquoted unquoted' heq.2
      rw [String.toList_inj] at hsame
      exact ⟨by rw [hsame], htail⟩

/-! ## Expressions -/

theorem Expr.IsReference.letterFirst {e : Expr} (h : e.IsReference) :
    letterFirst e.layout.toList = some true := by
  cases h with
  | ident valid => exact letterFirst_name valid
  | selector valid validMember =>
    rw [Expr.layout, Expr.layout, String.toList_append, String.toList_append]
    exact letterFirst_append (letterFirst_append (letterFirst_name valid) _) _

/-- A reference ends where its last name ends and no point follows. -/
def EndsReference (rest : List Char) : Prop :=
  Stops continues rest ∧ rest.head? ≠ some '.'

theorem endsReference_cons {c : Char} (h : continues c = false) (hpoint : c ≠ '.')
    (rest : List Char) : EndsReference (c :: rest) :=
  ⟨stops_cons h rest, by simpa using hpoint⟩

theorem endsReference_of_opens {marks rest : List Char} (h : Opens marks rest)
    (hmarks : marks.any continues = false) (hpoint : '.' ∉ marks) : EndsReference rest :=
  ⟨h.stops hmarks, h.ne hpoint⟩

theorem Expr.reference_unique :
    Determines Expr.IsReference (fun e ↦ e.layout.toList) id EndsReference := by
  have hpoint (rest : List Char) : Stops continues ('.' :: rest) := stops_cons (by decide) rest
  intro a b ha hb rest rest' hrest hrest' heq
  cases ha with
  | ident valid =>
    cases hb with
    | ident valid' =>
      obtain ⟨hsame, htail⟩ := name_unique valid valid' hrest.1 hrest'.1 heq
      exact ⟨by rw [hsame], htail⟩
    | selector valid' _ =>
      simp only [Expr.layout, String.toList_append, List.append_assoc] at heq
      obtain ⟨-, htail⟩ := name_unique valid valid' hrest.1 (hpoint _) heq
      exact (hrest.2 (by rw [htail]; rfl)).elim
  | selector valid validMember =>
    simp only [Expr.layout, String.toList_append, List.append_assoc] at heq
    cases hb with
    | ident valid' =>
      obtain ⟨-, htail⟩ := name_unique valid valid' (hpoint _) hrest'.1 heq
      exact (hrest'.2 (by rw [← htail]; rfl)).elim
    | selector valid' validMember' =>
      simp only [Expr.layout, String.toList_append, List.append_assoc] at heq
      obtain ⟨hbase, htail⟩ := name_unique valid valid' (hpoint _) (hpoint _) heq
      obtain ⟨hmember, htail⟩ := name_unique validMember validMember' hrest.1 hrest'.1
        (List.cons.inj htail).2
      exact ⟨by rw [hbase, hmember], htail⟩

theorem Expr.argument_unique :
    Determines Expr.IsArgument (fun e ↦ e.layout.toList) id (Stops continues) := by
  intro a b ha hb rest rest' hrest hrest' heq
  cases ha with
  | ident valid =>
    cases hb with
    | ident valid' =>
      obtain ⟨hsame, htail⟩ := name_unique valid valid' hrest hrest' heq
      exact ⟨by rw [hsame], htail⟩
    | literal legible =>
      exact (ne_of_letterFirst (letterFirst_name valid) (Literal.letterFirst legible) heq).elim
  | literal legible =>
    cases hb with
    | ident valid =>
      exact (ne_of_letterFirst (letterFirst_name valid) (Literal.letterFirst legible) heq.symm).elim
    | literal legible' =>
      obtain ⟨hsame, htail⟩ := Literal.unique legible legible' hrest hrest' heq
      exact ⟨congrArg Expr.literal hsame, htail⟩

theorem toList_intercalate_layout {α : Type} (layout : α → String) (values : List α) :
    (", ".intercalate (values.map layout)).toList =
      separated [',', ' '] (fun a ↦ (layout a).toList) values := by
  cases values with
  | nil => rfl
  | cons first rest =>
    rw [List.map_cons, intercalate_layout, List.map_map, String.toList_append, String.toList_join,
      List.flatMap_map]
    simp [separated]

theorem Expr.IsArgument.leads {e : Expr} (h : e.IsArgument) : Leads e.layout.toList := by
  cases h with
  | ident valid => exact leads_of_letterFirst (letterFirst_name valid)
  | literal legible => exact Literal.leads legible

theorem Expr.toList_layout_call (callee : Expr) (arguments : List Expr) (rest : List Char) :
    (Expr.call callee arguments).layout.toList ++ rest = callee.layout.toList ++
      '(' :: (separated [',', ' '] (fun e ↦ e.layout.toList) arguments ++ ')' :: rest) := by
  rw [Expr.layout, Expr.listLayout_eq, String.toList_append, String.toList_append,
    String.toList_append, toList_intercalate_layout]
  simp

theorem Expr.arguments_unique : Determines (fun arguments ↦ ∀ a ∈ arguments, a.IsArgument)
    (separated [',', ' '] fun e : Expr ↦ e.layout.toList) (List.map id) (Opens [')']) := by
  refine Determines.separated ?_ (by decide) fun a ha rest ↦ ?_
  · intro a b ha hb rest rest' hrest hrest' heq
    have hstops {rest : List Char} (h : Opens [',', ')'] rest) : Stops continues rest :=
      h.stops (by decide)
    exact argument_unique ha hb (hstops hrest) (hstops hrest') heq
  · exact (ha.leads.append rest).not_opens (by decide)

/-- A call and a reference differ in what follows the reference. -/
theorem Expr.call_ne_reference {callee e : Expr} {arguments : List Expr}
    (hcallee : callee.IsReference) (he : e.IsReference) {rest rest' : List Char}
    (hrest : EndsReference rest) (hparen : rest.head? ≠ some '(') :
    e.layout.toList ++ rest ≠ (Expr.call callee arguments).layout.toList ++ rest' := by
  intro heq
  rw [toList_layout_call] at heq
  have hopen (after : List Char) : EndsReference ('(' :: after) :=
    endsReference_cons (by decide) (by decide) after
  obtain ⟨-, htail⟩ := reference_unique he hcallee hrest (hopen _) heq
  exact hparen (by rw [htail]; rfl)

theorem Expr.letterFirst_call {callee : Expr} (h : callee.IsReference) (arguments : List Expr) :
    letterFirst (Expr.call callee arguments).layout.toList = some true := by
  rw [Expr.layout, String.append_assoc, String.append_assoc, String.toList_append]
  exact letterFirst_append h.letterFirst _

theorem Expr.unique :
    Determines Expr.Legible (fun e ↦ e.layout.toList) id (Opens [',', ')', '\n']) := by
  intro a b ha hb rest rest' hrest hrest' heq
  have hends {rest : List Char} (h : Opens [',', ')', '\n'] rest) : EndsReference rest :=
    endsReference_of_opens h (by decide) (by decide)
  replace ha := ha.form
  replace hb := hb.form
  cases ha with
  | reference ha =>
    cases hb with
    | reference hb => exact reference_unique ha hb (hends hrest) (hends hrest') heq
    | literal hb => exact (ne_of_letterFirst ha.letterFirst (Literal.letterFirst hb) heq).elim
    | call hcallee harguments =>
      exact (call_ne_reference hcallee ha (hends hrest) (hrest.ne (by decide)) heq).elim
  | literal ha =>
    cases hb with
    | reference hb =>
      exact (ne_of_letterFirst hb.letterFirst (Literal.letterFirst ha) heq.symm).elim
    | literal hb =>
      obtain ⟨hsame, htail⟩ := Literal.unique ha hb (hends hrest).1 (hends hrest').1 heq
      exact ⟨congrArg Expr.literal hsame, htail⟩
    | call hcallee harguments =>
      exact (ne_of_letterFirst (letterFirst_call hcallee _) (Literal.letterFirst ha) heq.symm).elim
  | call hcallee harguments =>
    cases hb with
    | reference hb =>
      have hparen := hrest'.ne (c := '(') (by decide)
      exact (call_ne_reference hcallee hb (hends hrest') hparen heq.symm).elim
    | literal hb =>
      exact (ne_of_letterFirst (letterFirst_call hcallee _) (Literal.letterFirst hb) heq).elim
    | call hcallee' harguments' =>
      dsimp only at heq
      rw [toList_layout_call, toList_layout_call] at heq
      have hopen (after : List Char) : EndsReference ('(' :: after) :=
        endsReference_cons (by decide) (by decide) after
      obtain ⟨hsame, htail⟩ := reference_unique hcallee hcallee' (hopen _) (hopen _) heq
      obtain ⟨hlist, htail⟩ := arguments_unique harguments harguments'
        (.cons (by decide) rest) (.cons (by decide) rest') (List.cons.inj htail).2
      rw [List.map_id, List.map_id] at hlist
      rw [id_eq, id_eq] at hsame
      exact ⟨by rw [hsame, hlist], (List.cons.inj htail).2⟩

theorem Expr.Legible.leads {e : Expr} (h : e.Legible) : Leads e.layout.toList := by
  replace h := h.form
  cases h with
  | reference h => exact leads_of_letterFirst h.letterFirst
  | literal h => exact Literal.leads h
  | call hcallee _ => exact leads_of_letterFirst (letterFirst_call hcallee _)

/-! ## Statements -/

/-- The word that begins a return is a keyword, so no name is read in its place. -/
theorem Expr.reference_ne_return {e : Expr} (h : e.IsReference) {rest rest' : List Char}
    (hrest : Stops continues rest) (hrest' : Stops continues rest') :
    e.layout.toList ++ rest ≠ "return".toList ++ rest' := by
  have hname {name : String} (valid : isValid name = true) {rest : List Char}
      (hrest : Stops continues rest) : name.toList ++ rest ≠ "return".toList ++ rest' := by
    intro heq
    have hword : ∀ c ∈ "return".toList, continues c = true := List.all_eq_true.1 (by decide)
    obtain ⟨hsame, -⟩ := run_unique (forall_continues valid) hword hrest hrest' heq
    rw [String.toList_inj] at hsame
    subst hsame
    exact absurd valid (by decide)
  cases h with
  | ident valid => exact hname valid hrest
  | selector valid validMember =>
    rw [Expr.layout, String.toList_append, String.toList_append, List.append_assoc,
      List.append_assoc]
    exact hname valid (stops_cons (by decide) _)

theorem Expr.ne_return {e : Expr} (h : e.Legible) {rest rest' : List Char}
    (hrest : Stops continues rest) (hrest' : Stops continues rest') :
    e.layout.toList ++ rest ≠ "return".toList ++ rest' := by
  replace h := h.form
  cases h with
  | reference h => exact reference_ne_return h hrest hrest'
  | literal h => exact fun heq ↦ ne_of_letterFirst (by decide) (Literal.letterFirst h) heq.symm
  | call hcallee _ =>
    rw [toList_layout_call]
    exact reference_ne_return hcallee (stops_cons (by decide) _) hrest'

theorem Stmt.toList_layout_ret (values : List Expr) (rest : List Char) :
    (Stmt.ret values).layout.toList ++ rest = "return".toList ++
      if values = [] then rest
      else ' ' :: (separated [',', ' '] (fun e ↦ e.layout.toList) values ++ rest) := by
  cases values with
  | nil => rfl
  | cons first others =>
    rw [if_neg (List.cons_ne_nil _ _), Stmt.layout, String.toList_append,
      toList_intercalate_layout]
    · simp
    · simp

theorem Stmt.values_unique : Determines (fun values ↦ ∀ e ∈ values, e.Legible)
    (separated [',', ' '] fun e : Expr ↦ e.layout.toList) (List.map id) (Opens ['\n']) := by
  refine Determines.separated ?_ (by decide) fun a ha rest ↦ ?_
  · intro a b ha hb rest rest' hrest hrest' heq
    have hwider {rest : List Char} (h : Opens [',', '\n'] rest) : Opens [',', ')', '\n'] rest :=
      h.mono (by decide)
    exact Expr.unique ha hb (hwider hrest) (hwider hrest') heq
  · exact (ha.leads.append rest).not_opens (by decide)

/-- An expression is not read as a return, nor a return as an expression. -/
theorem Stmt.expr_ne_ret {e : Expr} (he : e.Legible) (values : List Expr) {rest rest' : List Char}
    (hrest : Opens ['\n'] rest) (hrest' : Opens ['\n'] rest') :
    (Stmt.expr e).layout.toList ++ rest ≠ (Stmt.ret values).layout.toList ++ rest' := by
  rw [toList_layout_ret]
  refine Expr.ne_return he (hrest.stops (by decide)) ?_
  split
  · exact hrest'.stops (by decide)
  · exact stops_cons (by decide) _

theorem Stmt.unique :
    Determines Stmt.Legible (fun stmt ↦ stmt.layout.toList) id (Opens ['\n']) := by
  intro a b ha hb rest rest' hrest hrest' heq
  cases ha with
  | expr ha =>
    cases hb with
    | expr hb =>
      have hwider {rest : List Char} (h : Opens ['\n'] rest) : Opens [',', ')', '\n'] rest :=
        h.mono (by decide)
      obtain ⟨hsame, htail⟩ := Expr.unique ha hb (hwider hrest) (hwider hrest') heq
      exact ⟨congrArg Stmt.expr hsame, htail⟩
    | ret hb => exact (expr_ne_ret ha _ hrest hrest' heq).elim
  | @ret values hvalues =>
    cases hb with
    | expr hb => exact (expr_ne_ret hb _ hrest' hrest heq.symm).elim
    | @ret values' hvalues' =>
      dsimp only at heq
      rw [toList_layout_ret, toList_layout_ret, List.append_cancel_left_eq] at heq
      have hspace {rest : List Char} (h : Opens ['\n'] rest) (after : List Char) :
          rest ≠ ' ' :: after := by
        rintro rfl
        exact h.ne (c := ' ') (by decide) rfl
      by_cases hnone : values = []
      · by_cases hnone' : values' = []
        · rw [if_pos hnone, if_pos hnone'] at heq
          exact ⟨by rw [hnone, hnone'], heq⟩
        · rw [if_pos hnone, if_neg hnone'] at heq
          exact (hspace hrest _ heq).elim
      · by_cases hnone' : values' = []
        · rw [if_neg hnone, if_pos hnone'] at heq
          exact (hspace hrest' _ heq.symm).elim
        · rw [if_neg hnone, if_neg hnone', List.cons.injEq] at heq
          obtain ⟨hsame, htail⟩ := values_unique hvalues hvalues' hrest hrest' heq.2
          rw [List.map_id, List.map_id] at hsame
          exact ⟨by rw [hsame], htail⟩

theorem Stmt.Legible.ne_empty {stmt : Stmt} (h : stmt.Legible) : stmt.layout ≠ "" := by
  cases h with
  | expr h => exact (Expr.Legible.leads h).ne_empty
  | @ret values h =>
    intro hempty
    have hlayout := Stmt.toList_layout_ret values []
    rw [hempty] at hlayout
    cases hlayout

end DeclaredSource.Source
