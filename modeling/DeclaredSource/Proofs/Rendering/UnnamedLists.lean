import DeclaredSource.Proofs.Rendering.Checks

/-!
# Lists of names and lists of types

A field list that gives names only reads as a list of types, the same as if the names had been given
as types. It is printed the same too, except where a single result stands: a result given as a type
stands without parentheses, and one given as a name keeps them.
-/

namespace DeclaredSource

open Identifier

namespace Outline

def Field.bare (name : String) : Field :=
  ⟨some name, none⟩

def Field.typed (type : String) : Field :=
  ⟨none, some type⟩

def Function.withList (function : Function) (fields : List Field) : Rendering.Role → Function
  | .parameter => { function with params := fields }
  | .result => { function with results := fields }

end Outline

namespace Source

def Field.bare (name : String) : Field :=
  ⟨some name, none⟩

def Field.typedBy (name : String) : Field :=
  ⟨none, some (.ident name)⟩

theorem Field.listLayout_bare (names : List String) :
    Field.listLayout (names.map Field.bare) = ", ".intercalate names := by
  rw [Field.listLayout, List.map_map]
  exact congrArg _ (List.map_id names)

theorem Field.listLayout_typedBy (names : List String) :
    Field.listLayout (names.map Field.typedBy) = ", ".intercalate names := by
  rw [Field.listLayout, List.map_map]
  exact congrArg _ (List.map_id names)

end Source

namespace Rendering

open FirstFailure Outline

section

variable {function : String} {role : Role} {names : List String}

theorem fieldList_map_eq_ok {given : String → Field} {built : String → Source.Field}
    (hfull : ∀ name, ¬ (given name).Vacant) (hcoherent : Coherent (names.map given))
    (h : ∀ name ∈ names, ∀ place, field place (given name) = .ok (built name)) :
    fieldList function role (names.map given) = .ok (names.map built) := by
  rw [fieldList_of_coherent (by simpa using fun name _ ↦ hfull name) hcoherent]
  refine mapM_zipIdx_eq_ok ?_
  rw [List.forall₂_map_left_iff, List.forall₂_map_right_iff, List.forall₂_same]
  exact fun name hname index ↦ h name hname _

theorem fieldList_bare (h : ∀ name ∈ names, isValid name = true) :
    fieldList function role (names.map Field.bare) = .ok (names.map Source.Field.bare) := by
  refine fieldList_map_eq_ok (by simp [Field.Vacant, Field.bare])
    (.inr (.inl (by simp [NamesOnly, Field.bare]))) fun name hname place ↦ ?_
  have hident : ident name place = .ok name := ident_eq_ok.2 ⟨h name hname, rfl⟩
  rw [field, Field.bare, optionalIdent, hident]
  rfl

theorem fieldList_typed (h : ∀ name ∈ names, isValid name = true) :
    fieldList function role (names.map Field.typed) = .ok (names.map Source.Field.typedBy) := by
  refine fieldList_map_eq_ok (by simp [Field.Vacant, Field.typed])
    (.inl (by simp [TypesOnly, Field.typed])) fun name hname place ↦ ?_
  have hident : ident name place = .ok name := ident_eq_ok.2 ⟨h name hname, rfl⟩
  have htype : typeReference name place = .ok (.ident name) := by
    have hcut := cutAtPoint?_eq_none_iff.2 (not_mem_of_valid (h name hname) (by decide))
    rw [typeReference, hcut, hident]
    rfl
  rw [field, Field.typed, Option.mapM_some, htype]
  rfl

end

section

variable {S : String → String → Prop}

theorem functions_alike (before after : List Function) {f f' : Function}
    (h : Alike (fun a b ↦ S a.layout b.layout)
      (function before.length f) (function before.length f')) :
    Alike (fun fs fs' ↦ ∃ opening closing a b, S a.layout b.layout ∧
        fs = opening ++ a :: closing ∧ fs' = opening ++ b :: closing)
      ((before ++ f :: after).zipIdx.mapM fun (f, index) ↦ function index f)
      ((before ++ f' :: after).zipIdx.mapM fun (f, index) ↦ function index f) := by
  simp only [List.zipIdx_append, List.zipIdx_cons, List.mapM_append, List.mapM_cons, Nat.zero_add,
    bind_assoc, pure_bind]
  refine .bind_same fun opening ↦ .bind h fun a b hab ↦ .bind_same fun closing ↦ ?_
  exact .ok ⟨opening, closing, a, b, hab, rfl, rfl⟩

/-- What is printed of a file depends on each function by its text alone. -/
theorem text_alike (outline : Outline.File) (before after : List Function) {f f' : Function}
    (h : Alike (fun a b ↦ S a.layout b.layout)
      (function before.length f) (function before.length f')) :
    Alike (fun t t' ↦ ∃ opening closing first second, S first second ∧
        t = opening ++ first ++ closing ∧ t' = opening ++ second ++ closing)
      (text { outline with functions := before ++ f :: after })
      (text { outline with functions := before ++ f' :: after }) := by
  unfold text file
  simp only [bind_assoc, pure_bind]
  refine .bind_same fun package ↦ .bind_same fun imports ↦
    .bind (functions_alike before after h) ?_
  rintro _ _ ⟨opening, closing, a, b, hab, rfl, rfl⟩
  have hprint (f : Source.Func) :
      (Source.File.print ⟨package, imports ++ (opening ++ f :: closing).map .func⟩) =
        Source.File.layout ⟨package, imports ++ opening.map .func⟩ ++ "\n" ++ f.layout ++
          String.join ((closing.map .func).map fun decl ↦ "\n" ++ Source.Decl.layout decl) := by
    rw [Source.File.print_eq_layout, Source.File.layout, Source.File.layout]
    simp [Source.Decl.layout, String.append_assoc]
  exact .ok ⟨_, _, a.layout, b.layout, hab, hprint a, hprint b⟩

theorem function_alike_parameters (index : Nat) (f : Function) {names : List String}
    (h : ∀ name ∈ names, isValid name = true) :
    Alike (fun a b ↦ a.layout = b.layout)
      (function index (f.withList (names.map Field.bare) .parameter))
      (function index (f.withList (names.map Field.typed) .parameter)) := by
  unfold function Function.withList
  simp only [fieldList_bare h, fieldList_typed h, ok_bind]
  refine .bind_same fun name ↦ .bind_same fun results ↦ .bind_same fun body ↦ .ok ?_
  rw [Source.Func.layout, Source.Func.layout, Source.Field.listLayout_bare,
    Source.Field.listLayout_typedBy]

theorem function_alike_results (index : Nat) (f : Function) {names : List String}
    (h : ∀ name ∈ names, isValid name = true)
    (hS : ∀ opening closing, S
      (opening ++ Source.Func.resultsLayout (names.map Source.Field.bare) ++ closing)
      (opening ++ Source.Func.resultsLayout (names.map Source.Field.typedBy) ++ closing)) :
    Alike (fun a b ↦ S a.layout b.layout)
      (function index (f.withList (names.map Field.bare) .result))
      (function index (f.withList (names.map Field.typed) .result)) := by
  unfold function Function.withList
  simp only [fieldList_bare h, fieldList_typed h, ok_bind]
  refine .bind_same fun name ↦ .bind_same fun params ↦ .bind_same fun body ↦ .ok ?_
  have hlayout (results : List Source.Field) :
      Source.Func.layout ⟨name, params, results, body⟩ =
        "func " ++ name ++ "(" ++ Source.Field.listLayout params ++ ")" ++
          Source.Func.resultsLayout results ++ (Source.Func.bodyLayout body ++ "\n") :=
    String.append_assoc
  rw [hlayout, hlayout]
  exact hS _ _

end

theorem resultsLayout_bare {names : List String} (h : names.length ≠ 1) :
    Source.Func.resultsLayout (names.map Source.Field.bare) =
      Source.Func.resultsLayout (names.map Source.Field.typedBy) := by
  match names with
  | [] => rfl
  | [name] => exact absurd rfl h
  | first :: second :: rest =>
    let names := first :: second :: rest
    calc
      Source.Func.resultsLayout (names.map Source.Field.bare) =
          " (" ++ Source.Field.listLayout (names.map Source.Field.bare) ++ ")" := rfl
      _ = " (" ++ Source.Field.listLayout (names.map Source.Field.typedBy) ++ ")" := by
        rw [Source.Field.listLayout_bare, Source.Field.listLayout_typedBy]
      _ = Source.Func.resultsLayout (names.map Source.Field.typedBy) := rfl

/-- The first text has parentheses around the name where the second has none. -/
def Parenthesizes (name first second : String) : Prop :=
  ∃ opening closing, first = opening ++ " (" ++ name ++ ")" ++ closing ∧
    second = opening ++ " " ++ name ++ closing

/-- Giving the names of an unnamed list as types does not change what is printed, unless the list is
a single result. Then it takes the parentheses away, and changes nothing else. -/
theorem unnamed_lists_print_alike (outline : Outline.File) (before after : List Function)
    (f : Function) (role : Role) (names : List String)
    (h : ∀ name ∈ names, isValid name = true) :
    let asNames := text { outline with
      functions := before ++ f.withList (names.map Field.bare) role :: after }
    let asTypes := text { outline with
      functions := before ++ f.withList (names.map Field.typed) role :: after }
    (role = .parameter ∨ names.length ≠ 1 → asNames = asTypes) ∧
      ∀ name, role = .result → names = [name] →
        Alike (Parenthesizes name) asNames asTypes := by
  intro asNames asTypes
  constructor
  · intro hlist
    have halike : Alike (fun a b ↦ a.layout = b.layout)
        (function before.length (f.withList (names.map Field.bare) role))
        (function before.length (f.withList (names.map Field.typed) role)) := by
      cases role with
      | parameter => exact function_alike_parameters before.length f h
      | result =>
        have hlength : names.length ≠ 1 := hlist.resolve_left Role.noConfusion
        refine function_alike_results before.length f h fun opening closing ↦ ?_
        rw [resultsLayout_bare hlength]
    refine ((text_alike outline before after halike).mono ?_).eq
    rintro _ _ ⟨opening, closing, first, second, heq, rfl, rfl⟩
    rw [heq]
  · rintro name rfl rfl
    have halike : Alike (fun a b ↦ Parenthesizes name a.layout b.layout)
        (function before.length (f.withList ([name].map Field.bare) .result))
        (function before.length (f.withList ([name].map Field.typed) .result)) := by
      refine function_alike_results before.length f h fun opening closing ↦
        ⟨opening, closing, ?_, ?_⟩
      · simp [Source.Func.resultsLayout, Source.Field.bare, Source.Field.listLayout,
          Source.Field.layout, String.append_assoc]
      · simp [Source.Func.resultsLayout, Source.Field.typedBy, Source.Field.layout,
          Source.Expr.layout, String.append_assoc]
    refine (text_alike outline before after halike).mono ?_
    rintro _ _ ⟨opening, closing, _, _, ⟨opening', closing', rfl, rfl⟩, rfl, rfl⟩
    refine ⟨opening ++ opening', closing' ++ closing, ?_, ?_⟩
    · simp only [String.append_assoc]
    · simp only [String.append_assoc]

/-- A function without a body. -/
def signature (params results : List Field) : Outline.File :=
  ⟨"lib", [], [⟨"f", params, results, []⟩]⟩

theorem unnamed_lists_print_alike_signature :
    text (signature (["Reader", "Writer"].map Field.bare) []) =
        text (signature (["Reader", "Writer"].map Field.typed) []) ∧
      Alike (Parenthesizes "error") (text (signature [] (["error"].map Field.bare)))
        (text (signature [] (["error"].map Field.typed))) :=
  ⟨(unnamed_lists_print_alike (signature [] []) [] [] ⟨"f", [], [], []⟩ .parameter
      ["Reader", "Writer"] (by decide)).1 (.inl rfl),
    (unnamed_lists_print_alike (signature [] []) [] [] ⟨"f", [], [], []⟩ .result
      ["error"] (by decide)).2 "error" rfl rfl⟩

/-- A single result keeps its parentheses when its type is given as a name. -/
theorem single_name_keeps_parentheses :
    isValid "error" = true ∧
      text (signature [] [Field.bare "error"]) ≠ text (signature [] [Field.typed "error"]) ∧
      text (signature [] [Field.bare "error"]) =
        .ok "package lib\n\nfunc f() (error) \x7b\x7d\n" ∧
      text (signature [] [Field.typed "error"]) =
        .ok "package lib\n\nfunc f() error \x7b\x7d\n" := by
  have hbare : text (signature [] [Field.bare "error"]) =
      .ok "package lib\n\nfunc f() (error) \x7b\x7d\n" := rfl
  have htyped : text (signature [] [Field.typed "error"]) =
      .ok "package lib\n\nfunc f() error \x7b\x7d\n" := rfl
  refine ⟨rfl, ?_, hbare, htyped⟩
  rw [hbare, htyped]
  simp

end Rendering

end DeclaredSource
