import DeclaredSource.Proofs.Identifier
import DeclaredSource.Proofs.Source.Layout
import DeclaredSource.Proofs.Text.Determined

/-!
# Legible trees and how they are read

A tree is over leaves of one kind when its names are identifiers, its field lists are not mixed and
what else stands in its expressions is such a leaf. It is legible when its leaves are identifiers,
numbers made of digits and strings that hold no quote. It is read like any other tree, except that
a name which stands alone reads as a type in a list where no field has both parts.
-/

namespace DeclaredSource.Source

open Text Identifier

/-- A name, or a member of what a name stands for. -/
inductive Expr.IsReference : Expr → Prop
  | ident {name : String} (valid : isValid name = true) : IsReference (.ident name)
  | selector {base member : String} (valid : isValid base = true)
    (validMember : isValid member = true) : IsReference (.selector (.ident base) member)

/-- A reference, a leaf, or a call of a reference with leaves as its arguments. -/
inductive Expr.Over (Leaf : Expr → Prop) : Expr → Prop
  | reference {e : Expr} (reference : e.IsReference) : Over Leaf e
  | leaf {e : Expr} (leaf : Leaf e) : Over Leaf e
  | call {callee : Expr} {arguments : List Expr} (reference : callee.IsReference)
    (leaves : ∀ a ∈ arguments, Leaf a) : Over Leaf (.call callee arguments)

inductive Stmt.Over (Leaf : Expr → Prop) : Stmt → Prop
  | expr {e : Expr} (made : e.Over Leaf) : Over Leaf (.expr e)
  | ret {values : List Expr} (made : ∀ e ∈ values, e.Over Leaf) : Over Leaf (.ret values)

inductive Field.Legible : Field → Prop
  | full {name : String} {type : Expr} (valid : isValid name = true)
    (reference : type.IsReference) : Legible ⟨some name, some type⟩
  | name {name : String} (valid : isValid name = true) : Legible ⟨some name, none⟩
  | type {type : Expr} (reference : type.IsReference) : Legible ⟨none, some type⟩

def Field.isFull (field : Field) : Bool :=
  field.name.isSome && field.type.isSome

/-- In a list with a field that has both parts every field has a name. -/
structure Field.ListLegible (fields : List Field) : Prop where
  each : ∀ f ∈ fields, f.Legible
  named : fields.any isFull = true → ∀ f ∈ fields, f.name.isSome = true

structure Func.Over (Leaf : Expr → Prop) (func : Func) : Prop where
  name : isValid func.name = true
  params : Field.ListLegible func.params
  results : Field.ListLegible func.results
  body : ∀ stmt ∈ func.body, stmt.Over Leaf

structure ImportSpec.Over (Path : String → Prop) (spec : ImportSpec) : Prop where
  name : ∀ name, spec.name = some name → isValid name = true
  path : ∃ text : String, Path text ∧ spec.path = ⟨.string, "\"" ++ text ++ "\""⟩

inductive Decl.Over (Leaf : Expr → Prop) (Path : String → Prop) : Decl → Prop
  | imports {specs : List ImportSpec} (made : ∀ spec ∈ specs, spec.Over Path) :
    Over Leaf Path (.imports specs)
  | func {f : Func} (made : f.Over Leaf) : Over Leaf Path (.func f)

/-- Put together from identifiers, from leaves of one kind and from quoted paths of one kind. -/
structure File.Over (Leaf : Expr → Prop) (Path : String → Prop) (file : File) : Prop where
  package : isValid file.package = true
  decls : ∀ decl ∈ file.decls, decl.Over Leaf Path

inductive Literal.Legible : Literal → Prop
  | int {text : String} (present : text ≠ "") (digits : ∀ c ∈ text.toList, isDigit c = true) :
    Legible ⟨.int, text⟩
  | string {text : String} (unquoted : '"' ∉ text.toList) :
    Legible ⟨.string, "\"" ++ text ++ "\""⟩

inductive Expr.IsArgument : Expr → Prop
  | ident {name : String} (valid : isValid name = true) : IsArgument (.ident name)
  | literal {lit : Literal} (legible : lit.Legible) : IsArgument (.literal lit)

abbrev Expr.Legible : Expr → Prop := Over IsArgument

abbrev Stmt.Legible : Stmt → Prop := Over Expr.IsArgument

abbrev Func.Legible : Func → Prop := Over Expr.IsArgument

abbrev ImportSpec.Legible : ImportSpec → Prop := Over ('"' ∉ ·.toList)

abbrev Decl.Legible : Decl → Prop := Over Expr.IsArgument ('"' ∉ ·.toList)

abbrev File.Legible : File → Prop := Over Expr.IsArgument ('"' ∉ ·.toList)

/-- A legible expression by what it begins with: a leaf that is a name counts as a reference. -/
inductive Expr.Form : Expr → Prop
  | reference {e : Expr} (reference : e.IsReference) : Form e
  | literal {lit : Literal} (legible : lit.Legible) : Form (.literal lit)
  | call {callee : Expr} {arguments : List Expr} (reference : callee.IsReference)
    (legible : ∀ a ∈ arguments, a.IsArgument) : Form (.call callee arguments)

theorem Expr.Legible.form {e : Expr} (h : e.Legible) : e.Form := by
  cases h with
  | reference reference => exact .reference reference
  | leaf leaf =>
    cases leaf with
    | ident valid => exact .reference (.ident valid)
    | literal legible => exact .literal legible
  | call reference leaves => exact .call reference leaves

/-- A name that stands alone, read as a type. -/
def Field.typed : Field → Field
  | ⟨some name, none⟩ => ⟨none, some (.ident name)⟩
  | field => field

def Field.asRead (fields : List Field) : List Field :=
  if fields.any isFull then fields else fields.map typed

def Func.asRead (func : Func) : Func :=
  { func with params := Field.asRead func.params, results := Field.asRead func.results }

def Decl.asRead : Decl → Decl
  | .imports specs => .imports specs
  | .func f => .func f.asRead

def File.asRead (file : File) : File :=
  { file with decls := file.decls.map Decl.asRead }

theorem Field.isFull_typed (field : Field) : field.typed.isFull = field.isFull := by
  obtain ⟨name, type⟩ := field
  cases name <;> cases type <;> rfl

/-- Fields that have names are told apart by how they read. -/
theorem Field.typed_inj {first second : Field} (hfirst : first.name.isSome = true)
    (hsecond : second.name.isSome = true) (h : first.typed = second.typed) : first = second := by
  obtain ⟨_ | name, type⟩ := first
  · cases hfirst
  obtain ⟨_ | name', type'⟩ := second
  · cases hsecond
  cases type <;> cases type' <;> simp_all [typed]

theorem Field.any_isFull_of_typed {fields fields' : List Field}
    (h : fields.map typed = fields'.map typed) : fields.any isFull = fields'.any isFull := by
  have hany (fields : List Field) : (fields.map typed).any isFull = fields.any isFull := by
    rw [List.any_map]
    exact congrArg fields.any (funext isFull_typed)
  rw [← hany, h, hany]

theorem Field.asRead_eq_of_typed {fields fields' : List Field} (hfields : ListLegible fields)
    (hfields' : ListLegible fields') (h : fields.map typed = fields'.map typed) :
    asRead fields = asRead fields' := by
  have hany := any_isFull_of_typed h
  cases hfull : fields.any isFull with
  | false => rw [asRead, asRead, ← hany, hfull, if_neg (by decide), if_neg (by decide), h]
  | true =>
    rw [asRead, asRead, ← hany, hfull, if_pos rfl, if_pos rfl]
    have hnamed := hfields.named hfull
    have hnamed' := hfields'.named (hany ▸ hfull)
    clear hany hfull hfields hfields'
    induction fields generalizing fields' with
    | nil => exact (List.map_eq_nil_iff.1 h.symm).symm
    | cons first rest ih =>
      cases fields' with
      | nil => simp at h
      | cons second rest' =>
        rw [List.forall_mem_cons] at hnamed hnamed'
        obtain ⟨hhead, htail⟩ := List.cons.inj h
        rw [typed_inj hnamed.1 hnamed'.1 hhead, ih htail hnamed.2 hnamed'.2]

end DeclaredSource.Source
