import DeclaredSource.Proofs.Declaration.Relocation
import DeclaredSource.Proofs.Declaration.Thinning

/-!
# The first failure stands

Reading takes the attributes of a block in the order of its role and the items of a list from the
front, so what stands behind the first fault is not read. Two declarations that agree up to that
fault end in the same error, whatever the second one has behind it, at every level that encloses
the fault. A list is the one place where reading looks ahead: it is made sure that every item is an
object before the first item is read, so behind a fault inside an item there have to be objects, and
for an item that is no object the items before it need only be objects too.

The readers are taken apart into steps, each about one attribute. A step that fails names its
attribute, the steps before it do not look at what has changed, and for the inside of the attribute
the statement is already known.
-/

namespace DeclaredSource.Declaration

open FirstFailure

/-- The value that is at fault, which may be an attribute that is missing. -/
def Error.subject : Error → Place
  | .missingAttribute node attr => node.member attr
  | .typeMismatch node _ _ => node
  | .unsupportedKind node _ _ _ => node.member "kind"
  | .conflictingAttributes node _ _ => node
  | .unexpectedBlock node _ _ => node

theorem Error.subject_below (error : Error) (outer : Place) :
    (error.below outer).subject = error.subject.below outer := by
  cases error <;> simp [below, subject, Place.below_member]

/-- The attributes that are read after the given one. In a statement or an expression the kind comes
first, and what else is read depends on it. -/
def Role.readAfter (role : Role) (attr : String) : List String :=
  let later := ((role.slots.map Prod.fst).dropWhile (· ≠ attr)).tail
  match role with
  | .statement | .expression => if attr = "kind" then later else []
  | _ => later

/-- The same attribute in two blocks. -/
def SameIn (fields fields' : List (String × Json)) (attr : String) : Prop :=
  (Json.object fields').attribute? attr = (Json.object fields).attribute? attr

mutual

/-- Two values that differ in what is read after the place that a path leads to, and in nothing
else. -/
inductive AgreesUpTo : Role → List Segment → Json → Json → Prop
  | same {role : Role} {path : List Segment} (value : Json) : AgreesUpTo role path value value
  | member {role : Role} {attr : String} {path : List Segment}
    {fields fields' : List (String × Json)}
    (others : ∀ other, other ≠ attr → other ∉ role.readAfter attr → SameIn fields fields' other)
    (inside : SlotAgreesUpTo (role.slot? attr) path ((Json.object fields).attribute? attr)
      ((Json.object fields').attribute? attr)) :
    AgreesUpTo role (.member attr :: path) (.object fields) (.object fields')

/-- The same for what stands under an attribute. -/
inductive SlotAgreesUpTo : Option Slot → List Segment → Option Json → Option Json → Prop
  | same {slot : Option Slot} {path : List Segment} (value : Option Json) :
    SlotAgreesUpTo slot path value value
  | block {role : Role} {path : List Segment} {value value' : Json}
    (agrees : AgreesUpTo role path value value') :
    SlotAgreesUpTo (some (.block role)) path (some value) (some value')
  | item {role : Role} {path : List Segment} {before after after' : List Json}
    {item item' : Json} (agrees : AgreesUpTo role path item item')
    (objects : ∀ other ∈ after', other.shape = .object) :
    SlotAgreesUpTo (some (.list role)) (.item before.length :: path)
      (some (.array (before ++ item :: after))) (some (.array (before ++ item' :: after')))
  | misfit {role : Role} {before before' after after' : List Json} {item : Json}
    (length : before'.length = before.length) (objects : ∀ other ∈ before', other.shape = .object)
    (misfit : item.shape ≠ .object) :
    SlotAgreesUpTo (some (.list role)) [.item before.length]
      (some (.array (before ++ item :: after))) (some (.array (before' ++ item :: after')))

end

theorem SlotAgreesUpTo.isSome_eq {slot : Option Slot} {path : List Segment}
    {value value' : Option Json} (h : SlotAgreesUpTo slot path value value') :
    value'.isSome = value.isSome := by
  cases h <;> rfl

theorem SlotAgreesUpTo.eq_of_text {path : List Segment} {value value' : Option Json}
    (h : SlotAgreesUpTo (some .text) path value value') : value' = value := by
  cases h
  rfl

theorem AgreesUpTo.shape_eq {role : Role} {path : List Segment} {value value' : Json}
    (h : AgreesUpTo role path value value') : value'.shape = value.shape := by
  cases h <;> rfl

namespace Block

variable {block : Block} {attr : String} {error : Error}

theorem subject_of_textOf {value : Json} {place : Place} (h : textOf value place = .error error) :
    error.subject = place := by
  rw [textOf] at h
  cases htext : value.scalarText? <;> rw [htext] at h <;> cases h
  rfl

theorem subject_of_requiredText (h : block.requiredText attr = .error error) :
    error.subject = block.place.member attr := by
  rw [requiredText] at h
  cases hvalue : block.get? attr <;> rw [hvalue] at h
  · cases h
    rfl
  · exact subject_of_textOf h

theorem subject_of_optionalText (h : block.optionalText attr = .error error) :
    error.subject = block.place.member attr := by
  rw [optionalText] at h
  cases hvalue : block.get? attr <;> rw [hvalue] at h
  · cases h
  · exact subject_of_textOf (map_eq_error.1 h)

theorem subject_of_kind {κ : Type} [Vocabulary κ] (h : block.kind κ = .error error) :
    error.subject = block.place.member "kind" := by
  rcases bind_eq_error.1 h with hfails | ⟨text, -, hfails⟩
  · exact subject_of_requiredText hfails
  · cases hread : (Vocabulary.read? text : Option κ) <;> rw [hread] at hfails <;> cases hfails
    rfl

end Block

open Block

/-! ## Steps -/

section Steps

variable {α β γ : Type} {role inner : Role} {attrs later : List String}

/-- An error of the reader stays as it is when the value changes behind the fault. -/
def Stands (role : Role) (reader : Block → Except Error α) : Prop :=
  ∀ {value value' : Json} {error : Error}, readAlone reader value = .error error →
    AgreesUpTo role error.subject.segments value value' → readAlone reader value' = .error error

theorem Stands.below {reader : Block → Except Error α} {value value' : Json} {error : Error}
    {place : Place} {path : List Segment} (h : Stands role reader)
    (hread : (readAlone reader value).mapError (·.below place) = .error error)
    (hpath : error.subject.segments = place.segments ++ path)
    (hagrees : AgreesUpTo role path value value') :
    (readAlone reader value').mapError (·.below place) = .error error := by
  obtain ⟨inner, hinner, rfl⟩ := mapError_eq_error.1 hread
  rw [inner.subject_below] at hpath
  rw [← List.append_cancel_left hpath] at hagrees
  exact mapError_eq_error.2 ⟨inner, h hinner hagrees, rfl⟩

theorem subject_of_below {reader : Block → Except Error α} {value : Json} {error : Error}
    {place : Place} (h : (readAlone reader value).mapError (·.below place) = .error error) :
    ∃ path, error.subject.segments = place.segments ++ path := by
  obtain ⟨inner, -, rfl⟩ := mapError_eq_error.1 h
  exact ⟨inner.subject.segments, by rw [inner.subject_below]; rfl⟩

section Items

variable {reader : Block → Except Error α} {before after after' : List Json} {item item' : Json}
  {place : Place} {path : List Segment} {error : Error}

theorem ItemFails.subject {items : List Json} (h : ItemFails reader items place error) :
    ∃ path, error.subject.segments = place.segments ++ path := by
  cases h with
  | misfit => exact ⟨_, rfl⟩
  | @inside before _ _ inner =>
    refine ⟨.item before.length :: inner.subject.segments, ?_⟩
    simp [inner.subject_below, Place.below, Place.item]

/-- The item at fault is the one that the subject of the error names. -/
theorem ItemFails.at_item (h : ItemFails reader (before ++ item :: after) place error)
    (hpath : error.subject.segments = place.segments ++ .item before.length :: path) :
    (path = [] ∧ item.shape ≠ .object ∧ (∀ other ∈ before, other.shape = .object) ∧
      error = .typeMismatch (place.item before.length) .object item.shape) ∨
    ((∀ other ∈ before ++ item :: after, other.shape = .object) ∧
      (∀ other ∈ before, ∃ result, readAlone reader other = .ok result) ∧
      (readAlone reader item).mapError (·.below (place.item before.length)) = .error error) := by
  generalize hitems : before ++ item :: after = items at h
  cases h with
  | @misfit before₁ _ item₁ split objects misfit =>
    have hsegments : [Segment.item before₁.length] = .item before.length :: path :=
      List.append_cancel_left hpath
    obtain ⟨hindex, rfl⟩ := List.cons.inj hsegments
    obtain ⟨rfl, hrest⟩ := List.append_inj (split.symm.trans hitems.symm) (by simpa using hindex)
    obtain ⟨rfl, -⟩ := List.cons.inj hrest
    exact .inl ⟨rfl, misfit, objects, rfl⟩
  | @inside before₁ _ item₁ inner split objects earlier fails =>
    have hsegments : .item before₁.length :: inner.subject.segments =
        .item before.length :: path := by
      refine List.append_cancel_left (?_ : place.segments ++ _ = place.segments ++ _)
      rw [← hpath, inner.subject_below]
      simp [Place.below, Place.item]
    obtain ⟨hindex, -⟩ := List.cons.inj hsegments
    obtain ⟨rfl, hrest⟩ := List.append_inj (split.symm.trans hitems.symm) (by simpa using hindex)
    obtain ⟨rfl, -⟩ := List.cons.inj hrest
    exact .inr ⟨hitems ▸ objects, earlier, mapError_eq_error.2 ⟨inner, fails, rfl⟩⟩

/-- The fault stays when it stands in its item and other objects follow the item. -/
theorem ItemFails.of_item (h : ItemFails reader (before ++ item :: after) place error)
    (hreader : Stands role reader)
    (hpath : error.subject.segments = place.segments ++ .item before.length :: path)
    (hagrees : AgreesUpTo role path item item')
    (hobjects : ∀ other ∈ after', other.shape = .object) :
    ItemFails reader (before ++ item' :: after') place error := by
  rcases h.at_item hpath with ⟨rfl, hmisfit, hbefore, rfl⟩ | ⟨hitems, hearlier, hfails⟩
  · cases hagrees
    exact .misfit rfl hbefore hmisfit
  · rw [List.forall_mem_append, List.forall_mem_cons] at hitems
    have hpath' : error.subject.segments = (place.item before.length).segments ++ path := by
      rw [hpath]
      simp [Place.item]
    obtain ⟨inner, hinner, rfl⟩ := mapError_eq_error.1 (hreader.below hfails hpath' hagrees)
    refine .inside rfl ?_ hearlier hinner
    rw [List.forall_mem_append, List.forall_mem_cons, hagrees.shape_eq]
    exact ⟨hitems.1, hitems.2.1, hobjects⟩

/-- An item that is no object is at fault whatever the objects before it are. -/
theorem ItemFails.of_misfit {before' : List Json}
    (h : ItemFails reader (before ++ item :: after) place error)
    (hpath : error.subject.segments = place.segments ++ [.item before.length])
    (hlength : before'.length = before.length) (hobjects : ∀ other ∈ before', other.shape = .object)
    (hmisfit : item.shape ≠ .object) :
    ItemFails reader (before' ++ item :: after') place error := by
  rcases h.at_item hpath with ⟨-, -, -, rfl⟩ | ⟨hitems, -, -⟩
  · rw [← hlength]
    exact .misfit rfl hobjects hmisfit
  · exact absurd (hitems item (by simp)) hmisfit

end Items

/-- A step in the reading of a block at the root looks at the given attributes only. Where it fails
inside one of them, it fails as before when this attribute changes behind the fault. -/
structure Step (role : Role) (attrs : List String) (step : Block → Except Error α) : Prop where
  located : ∀ {fields error attr path}, step ⟨fields, .root⟩ = .error error →
    error.subject.segments = .member attr :: path → attr ∈ attrs
  unchanged : ∀ {fields fields'}, (∀ attr ∈ attrs, SameIn fields fields' attr) →
    step ⟨fields', .root⟩ = step ⟨fields, .root⟩
  stands : ∀ {fields fields' error attr path}, step ⟨fields, .root⟩ = .error error →
    error.subject.segments = .member attr :: path →
    (∀ other, other ≠ attr → other ∉ role.readAfter attr → SameIn fields fields' other) →
    SlotAgreesUpTo (role.slot? attr) path ((Json.object fields).attribute? attr)
      ((Json.object fields').attribute? attr) →
    step ⟨fields', .root⟩ = .error error

namespace Step

theorem toStands {reader : Block → Except Error α} (h : Step role attrs reader) :
    Stands role reader := by
  intro value value' error hread hagrees
  generalize hpath : error.subject.segments = path at hagrees
  cases hagrees with
  | same => exact hread
  | member others inside => exact h.stands hread hpath others inside

theorem ok (a : α) : Step role [] fun _ ↦ (.ok a : Except Error α) where
  located h := by cases h
  unchanged _ := rfl
  stands h := by cases h

theorem map {step : Block → Except Error α} (f : α → β) (h : Step role attrs step) :
    Step role attrs fun block ↦ f <$> step block where
  located hfails := h.located (map_eq_error.1 hfails)
  unchanged hsame := congrArg (f <$> ·) (h.unchanged hsame)
  stands hfails hpath others inside :=
    map_eq_error.2 (h.stands (map_eq_error.1 hfails) hpath others inside)

/-- The second step fails at attributes that are read after that of the first. -/
theorem bind {attr : String} {step : Block → Except Error α} {rest : α → Block → Except Error β}
    (hstep : Step role [attr] step) (hrest : ∀ a, Step role later (rest a))
    (horder : ∀ other ∈ later, attr ≠ other ∧ attr ∉ role.readAfter other) :
    Step role (attr :: later) fun block ↦ step block >>= fun a ↦ rest a block where
  located h hpath := by
    rcases bind_eq_error.1 h with hfails | ⟨a, -, hfails⟩
    · exact List.mem_cons.2 (.inl (List.mem_singleton.1 (hstep.located hfails hpath)))
    · exact List.mem_cons_of_mem attr ((hrest a).located hfails hpath)
  unchanged hsame := by
    rw [List.forall_mem_cons] at hsame
    rw [hstep.unchanged (List.forall_mem_singleton.2 hsame.1)]
    exact congrArg (_ >>= ·) (funext fun a ↦ (hrest a).unchanged hsame.2)
  stands h hpath others inside := by
    rw [bind_eq_error]
    rcases bind_eq_error.1 h with hfails | ⟨a, hreads, hfails⟩
    · exact .inl (hstep.stands hfails hpath others inside)
    · obtain ⟨hother, hearlier⟩ := horder _ ((hrest a).located hfails hpath)
      have hsame := hstep.unchanged (List.forall_mem_singleton.2 (others attr hother hearlier))
      exact .inr ⟨a, hsame.trans hreads, (hrest a).stands hfails hpath others inside⟩

theorem mono {step : Block → Except Error α} (h : Step role attrs step) (hsub : attrs ⊆ later) :
    Step role later step where
  located hfails hpath := hsub (h.located hfails hpath)
  unchanged hsame := h.unchanged fun attr hattr ↦ hsame attr (hsub hattr)
  stands := h.stands

/-- A check of which attributes are there, which blames the block itself. -/
theorem after_check {check : Block → Except Error γ} {rest : γ → Block → Except Error α}
    (hcheck : ∀ {fields fields'}, (∀ attr ∈ attrs, ((Json.object fields').attribute? attr).isSome =
      ((Json.object fields).attribute? attr).isSome) →
      check ⟨fields', .root⟩ = check ⟨fields, .root⟩)
    (hself : ∀ {block error}, check block = .error error → error.subject = block.place)
    (hrest : ∀ c, Step role attrs (rest c))
    (horder : ∀ attr ∈ attrs, ∀ other ∈ attrs, other ∉ role.readAfter attr) :
    Step role attrs fun block ↦ check block >>= fun c ↦ rest c block where
  located h hpath := by
    rcases bind_eq_error.1 h with hfails | ⟨c, -, hfails⟩
    · rw [hself hfails] at hpath
      cases hpath
    · exact (hrest c).located hfails hpath
  unchanged hsame := by
    rw [hcheck fun attr hattr ↦ congrArg Option.isSome (hsame attr hattr)]
    exact congrArg (_ >>= ·) (funext fun c ↦ (hrest c).unchanged hsame)
  stands {fields fields' error attr path} h hpath others inside := by
    rcases bind_eq_error.1 h with hfails | ⟨c, hchecks, hfails⟩
    · rw [hself hfails] at hpath
      cases hpath
    · have hattr := (hrest c).located hfails hpath
      have hthere : check ⟨fields', .root⟩ = check ⟨fields, .root⟩ := by
        refine hcheck fun other hother ↦ ?_
        by_cases hsame : other = attr
        · rw [hsame, inside.isSome_eq]
        · rw [others other hsame (horder attr hattr other hother)]
      rw [bind_eq_error]
      exact .inr ⟨c, hthere.trans hchecks, (hrest c).stands hfails hpath others inside⟩

/-- A step that looks at one attribute only, and fails there. -/
theorem of_slot {attr : String} {slot : Slot} {step : Block → Except Error α}
    (hslot : role.slot? attr = some slot)
    (hunchanged : ∀ {fields fields'}, SameIn fields fields' attr →
      step ⟨fields', .root⟩ = step ⟨fields, .root⟩)
    (hlocated : ∀ {fields error}, step ⟨fields, .root⟩ = .error error →
      ∃ path, error.subject.segments = .member attr :: path)
    (hstands : ∀ {fields fields' error path}, step ⟨fields, .root⟩ = .error error →
      error.subject.segments = .member attr :: path →
      SlotAgreesUpTo (some slot) path ((Json.object fields).attribute? attr)
        ((Json.object fields').attribute? attr) →
      step ⟨fields', .root⟩ = .error error) :
    Step role [attr] step where
  located h hpath := by
    obtain ⟨_, hpath'⟩ := hlocated h
    rw [hpath'] at hpath
    cases hpath
    exact List.mem_singleton_self attr
  unchanged hsame := hunchanged (hsame attr (List.mem_singleton_self attr))
  stands h hpath others inside := by
    obtain ⟨_, hpath'⟩ := hlocated h
    rw [hpath'] at hpath
    cases hpath
    exact hstands h hpath' (hslot ▸ inside)

/-- Text has no inside, so what stands under the attribute is the same. -/
theorem of_text {attr : String} {step : Block → Except Error α}
    (hslot : role.slot? attr = some .text)
    (hunchanged : ∀ {fields fields'}, SameIn fields fields' attr →
      step ⟨fields', .root⟩ = step ⟨fields, .root⟩)
    (hsubject : ∀ {block error}, step block = .error error →
      error.subject = block.place.member attr) : Step role [attr] step := by
  refine of_slot hslot hunchanged (fun h ↦ ⟨[], by rw [hsubject h]; rfl⟩) ?_
  intro fields fields' error path h hpath hagrees
  rw [hunchanged hagrees.eq_of_text, h]

theorem requiredText (attr : String) (hslot : role.slot? attr = some .text) :
    Step role [attr] (·.requiredText attr) :=
  of_text hslot (fun hsame ↦ requiredText_congr rfl hsame) subject_of_requiredText

theorem optionalText (attr : String) (hslot : role.slot? attr = some .text) :
    Step role [attr] (·.optionalText attr) :=
  of_text hslot (fun hsame ↦ optionalText_congr rfl hsame) subject_of_optionalText

theorem kind {κ : Type} [Vocabulary κ] (hslot : role.slot? "kind" = some .text) :
    Step role ["kind"] (·.kind κ) :=
  of_text hslot (fun hsame ↦ kind_congr rfl hsame) subject_of_kind

variable {attr : String}

/-- A block, or what is made of its absence. -/
theorem of_block {step : Block → Except Error α} {reader : Block → Except Error α}
    (absent : Except Error α) (hslot : role.slot? attr = some (.block inner))
    (habsent : ∀ {error}, absent = .error error → error.subject = Place.root.member attr)
    (hnone : ∀ {fields}, (Json.object fields).attribute? attr = none →
      step ⟨fields, .root⟩ = absent)
    (hsome : ∀ {fields value}, (Json.object fields).attribute? attr = some value →
      step ⟨fields, .root⟩ =
        (readAlone reader value).mapError (·.below (Place.root.member attr)))
    (hreader : Stands inner reader) : Step role [attr] step := by
  have hunchanged {fields fields' : List (String × Json)} (hsame : SameIn fields fields' attr) :
      step ⟨fields', .root⟩ = step ⟨fields, .root⟩ := by
    cases hvalue : (Json.object fields).attribute? attr with
    | none => rw [hnone hvalue, hnone (hsame.trans hvalue)]
    | some value => rw [hsome hvalue, hsome (hsame.trans hvalue)]
  refine of_slot hslot hunchanged ?_ ?_
  · intro fields error h
    cases hvalue : (Json.object fields).attribute? attr with
    | none =>
      rw [hnone hvalue] at h
      exact ⟨[], by rw [habsent h]; rfl⟩
    | some value =>
      rw [hsome hvalue] at h
      exact subject_of_below h
  · intro fields fields' error path h hpath hagrees
    generalize hvalue : (Json.object fields).attribute? attr = value at hagrees
    generalize hvalue' : (Json.object fields').attribute? attr = value' at hagrees
    cases hagrees with
    | same => rw [hunchanged (hvalue'.trans hvalue.symm), h]
    | block hagrees =>
      rw [hsome hvalue] at h
      rw [hsome hvalue']
      exact hreader.below h hpath hagrees

theorem requiredBlock {reader : Block → Except Error α}
    (hslot : role.slot? attr = some (.block inner)) (hmove : Movable reader)
    (hreader : Stands inner reader) :
    Step role [attr] fun block ↦ block.requiredBlock attr >>= reader := by
  refine of_block (.error (.missingAttribute .root attr)) hslot ?_ ?_ ?_ hreader
  · rintro error ⟨⟩
    rfl
  · intro fields hvalue
    rw [Block.requiredBlock, get?_eq, Block.value, hvalue]
    rfl
  · intro fields value hvalue
    have hblock : (⟨fields, .root⟩ : Block).value.attribute? attr = some value := hvalue
    exact hmove.requiredBlock_bind hblock

theorem optionalBlock {reader : Option Block → Except Error α} {absent : α}
    (hslot : role.slot? attr = some (.block inner)) (hnone : reader none = .ok absent)
    (hmove : Movable fun block ↦ reader (some block))
    (hreader : Stands inner fun block ↦ reader (some block)) :
    Step role [attr] fun block ↦ block.optionalBlock attr >>= reader := by
  refine of_block (.ok absent) hslot (fun h ↦ by cases h) ?_ ?_ hreader
  · intro fields hvalue
    rw [Block.optionalBlock, get?_eq, Block.value, hvalue]
    exact hnone
  · intro fields value hvalue
    have hblock : (⟨fields, .root⟩ : Block).value.attribute? attr = some value := hvalue
    exact hmove.optionalBlock_bind hblock

/-- The items of a list are read from the front, once all of them are known to be objects. -/
theorem blocks {reader : Block → Except Error α} (hslot : role.slot? attr = some (.list inner))
    (hmove : Movable reader) (hreader : Stands inner reader) :
    Step role [attr] fun block ↦ block.blocks attr >>= (·.mapM reader) := by
  have hfails {fields : List (String × Json)} {items : List Json} {error : Error}
      (hitems : (Json.object fields).attribute? attr = some (.array items)) :
      (⟨fields, .root⟩ : Block).blocks attr >>= (·.mapM reader) = .error error ↔
        ItemFails reader items (Place.root.member attr) error := by
    have hblock : (⟨fields, .root⟩ : Block).value.attribute? attr = some (.array items) := hitems
    rw [blocks_bind hblock, hmove.readItems_eq_error]
  have hunchanged {fields fields' : List (String × Json)} (hsame : SameIn fields fields' attr) :
      (⟨fields', .root⟩ : Block).blocks attr >>= (·.mapM reader) =
        (⟨fields, .root⟩ : Block).blocks attr >>= (·.mapM reader) :=
    congrArg (· >>= _) (blocks_congr rfl hsame)
  refine of_slot hslot hunchanged ?_ ?_
  · intro fields error h
    cases hvalue : (⟨fields, .root⟩ : Block).get? attr with
    | none =>
      rw [Block.blocks, hvalue] at h
      cases h
    | some value =>
      cases value with
      | array items => exact ((hfails hvalue).1 h).subject
      | _ =>
        rw [Block.blocks, hvalue] at h
        cases h
        exact ⟨[], rfl⟩
  · intro fields fields' error path h hpath hagrees
    generalize hvalue : (Json.object fields).attribute? attr = value at hagrees
    generalize hvalue' : (Json.object fields').attribute? attr = value' at hagrees
    cases hagrees with
    | same => exact (hunchanged (hvalue'.trans hvalue.symm)).trans h
    | item hagrees objects =>
      exact (hfails hvalue').2 (((hfails hvalue).1 h).of_item hreader hpath hagrees objects)
    | misfit length objects misfit =>
      exact (hfails hvalue').2 (((hfails hvalue).1 h).of_misfit hpath length objects misfit)

end Step

end Steps

/-! ## Readers -/

theorem step_readLiteral : Step .literal ["kind", "value"] readLiteral := by
  refine .bind (.kind rfl) (fun kind ↦ ?_) (by decide)
  exact .bind (.requiredText "value" rfl) (fun text ↦ .ok _) (by decide)

theorem step_readSelector : Step .selector ["from", "prop"] readSelector := by
  refine .bind (.optionalText "from" rfl) (fun base ↦ ?_) (by decide)
  exact .bind (.requiredText "prop" rfl) (fun member ↦ .ok _) (by decide)

theorem step_readCall : Step .call ["func", "args"] readCall := by
  rw [funext readCall_eq]
  refine .bind (.requiredBlock rfl movable_readSelector step_readSelector.toStands)
    (fun callee ↦ ?_) (by decide)
  exact .bind (.blocks rfl movable_readLiteral step_readLiteral.toStands) (fun arguments ↦ .ok _)
    (by decide)

/-- The block that gives an expression of the kind. -/
def Role.payload : ExpressionKind → Role
  | .call => .call
  | .selector => .selector
  | .identifier => .identifier
  | .literal => .literal

theorem stands_readPayload (kind : ExpressionKind) :
    Stands (Role.payload kind) (readPayload · kind) := by
  cases kind with
  | call => exact step_readCall.toStands
  | selector => exact (step_readSelector.map _).toStands
  | identifier => exact ((Step.requiredText "name" rfl).map _).toStands
  | literal => exact (step_readLiteral.map _).toStands

theorem refuseStray_of_present {mode : Mode} {kind : ExpressionKind}
    {fields fields' : List (String × Json)}
    (h : ∀ attr ∈ Vocabulary.spellings ExpressionKind,
      ((Json.object fields').attribute? attr).isSome =
        ((Json.object fields).attribute? attr).isSome) :
    refuseStray mode ⟨fields', .root⟩ kind = refuseStray mode ⟨fields, .root⟩ kind := by
  have hstray : strayPayload? ⟨fields', .root⟩ kind = strayPayload? ⟨fields, .root⟩ kind := by
    refine congrArg (Vocabulary.kinds.find? ·) (funext fun other ↦ ?_)
    have hspelling : Vocabulary.spelling other ∈ Vocabulary.spellings ExpressionKind := by
      cases other <;> decide
    exact congrArg (other ≠ kind && ·) (h _ hspelling)
  unfold refuseStray
  rw [hstray]

theorem subject_of_refuseStray {mode : Mode} {kind : ExpressionKind} {block : Block} {error : Error}
    (h : refuseStray mode block kind = .error error) : error.subject = block.place := by
  unfold refuseStray at h
  split at h <;> cases h
  rfl

theorem step_readExpression (mode : Mode) :
    Step .expression ["kind", "call", "selector", "identifier", "literal"]
      (readExpression mode) := by
  refine .bind (.kind rfl) (fun kind ↦ ?_) (by decide)
  refine .after_check refuseStray_of_present subject_of_refuseStray (fun _ ↦ ?_) (by decide)
  refine (Step.requiredBlock ?_ (movable_readPayload kind) (stands_readPayload kind)).mono ?_
  · cases kind <;> rfl
  · cases kind <;> decide

/-- Either kind of statement may have an expression by itself. -/
theorem step_expression (mode : Mode) : Step .statement ["expression"] fun block ↦
    block.requiredBlock "expression" >>= readExpression mode :=
  .requiredBlock rfl (movable_readExpression mode) (step_readExpression mode).toStands

theorem step_readExpressionStatement (mode : Mode) :
    Step .statement ["expression", "results"] (readExpressionStatement mode) := by
  rw [funext (readExpressionStatement_eq mode)]
  refine .after_check (fun hpresent ↦ ?_) (fun h ↦ ?_) (fun _ ↦ ?_) (by decide)
  · have hresults := hpresent "results" (by decide)
    rw [refuseResults, refuseResults, has_eq, has_eq, Block.value, Block.value, hresults]
  · unfold refuseResults at h
    split at h <;> cases h
    rfl
  · exact ((step_expression mode).map _).mono (by decide)

theorem step_readReturn (mode : Mode) :
    Step .statement ["expression", "results"] (readReturn mode) := by
  rw [funext (readReturn_eq mode)]
  refine .after_check (fun hpresent ↦ ?_) (fun h ↦ ?_) (fun alone ↦ ?_) (by decide)
  · have hexpression := hpresent "expression" (by decide)
    have hresults := hpresent "results" (by decide)
    rw [givesOne, givesOne, has_eq, has_eq, has_eq, has_eq, Block.value, Block.value, hexpression,
      hresults]
  · unfold givesOne at h
    split at h <;> cases h
    rfl
  · cases alone with
    | true => exact ((step_expression mode).map _).mono (by decide)
    | false =>
      have hresults : Step .statement ["results"] fun block ↦
          block.blocks "results" >>= (·.mapM (readExpression mode)) :=
        .blocks rfl (movable_readExpression mode) (step_readExpression mode).toStands
      exact (hresults.map _).mono (by decide)

theorem step_readStatement (mode : Mode) :
    Step .statement ["kind", "expression", "results"] (readStatement mode) := by
  refine .bind (.kind rfl) (fun kind ↦ ?_) (by decide)
  cases kind with
  | expression => exact step_readExpressionStatement mode
  | ret => exact step_readReturn mode

theorem step_readField : Step .field ["name", "type"] readField := by
  refine .bind (.optionalText "name" rfl) (fun name ↦ ?_) (by decide)
  exact .bind (.optionalText "type" rfl) (fun type ↦ .ok _) (by decide)

theorem step_readSignature :
    Step .signature ["params", "results"] fun block ↦ readSignature (some block) := by
  have hfields (attr : String) (hslot : Role.signature.slot? attr = some (.list .field)) :
      Step .signature [attr] (readFields · attr) :=
    .blocks hslot movable_readField step_readField.toStands
  refine .bind (hfields "params" rfl) (fun params ↦ ?_) (by decide)
  exact .bind (hfields "results" rfl) (fun results ↦ .ok _) (by decide)

theorem step_readBody (mode : Mode) :
    Step .body ["statements"] fun block ↦ readBody mode (some block) :=
  .blocks rfl (movable_readStatement mode) (step_readStatement mode).toStands

theorem step_readFunction (mode : Mode) :
    Step .function ["name", "signature", "body"] (readFunction mode) := by
  rw [funext (readFunction_eq mode)]
  refine .bind (.requiredText "name" rfl) (fun name ↦ ?_) (by decide)
  refine .bind (.optionalBlock rfl rfl ?_ step_readSignature.toStands) (fun fields ↦ ?_) (by decide)
  · exact fun block outer ↦ readSignature_below (some block) outer
  refine .bind (.optionalBlock rfl rfl ?_ (step_readBody mode).toStands) (fun body ↦ .ok _)
    (by decide)
  exact fun block outer ↦ readBody_below mode (some block) outer

theorem step_readImport : Step .importSpec ["name", "path"] readImport := by
  refine .bind (.optionalText "name" rfl) (fun localName ↦ ?_) (by decide)
  exact .bind (.requiredText "path" rfl) (fun path ↦ .ok _) (by decide)

theorem step_readFile (mode : Mode) :
    Step .file ["packageName", "imports", "functions"] (readFile mode) := by
  rw [funext (readFile_eq mode)]
  refine .bind (.requiredText "packageName" rfl) (fun package ↦ ?_) (by decide)
  refine .bind (.blocks rfl movable_readImport step_readImport.toStands) (fun imports ↦ ?_)
    (by decide)
  exact .bind (.blocks rfl (movable_readFunction mode) (step_readFunction mode).toStands)
    (fun functions ↦ .ok _) (by decide)

/-- Reading ends in the same error whatever stands behind the fault. -/
theorem first_failure_stands {mode : Mode} {declaration changed : Json} {error : Error}
    (h : read mode declaration = .error error)
    (hagree : AgreesUpTo .file error.subject.segments declaration changed) :
    read mode changed = .error error :=
  (step_readFile mode).toStands h hagree

/-- A literal of an unknown kind in a call, with other arguments, statements and functions behind
it. -/
theorem first_failure_stands_in_call :
    let argument : Json := .object [("kind", .string "float"), ("value", .string "1.5")]
    let declaration (arguments statements functions : List Json) : Json :=
      .object [("packageName", .string "main"), ("functions", .array (.object [
        ("name", .string "g"), ("body", .object [("statements", .array (.object [
          ("kind", .string "expression"), ("expression", .object [("kind", .string "call"),
            ("call", .object [("func", .object [("prop", .string "f")]),
              ("args", .array (argument :: arguments))])])] :: statements))])] :: functions))]
    let node : Place := ⟨[.member "functions", .item 0, .member "body", .member "statements",
      .item 0, .member "expression", .member "call", .member "args", .item 0]⟩
    let error : Error := .unsupportedKind node "literal" "float" ["identifier", "string", "int"]
    read .strict (declaration [] [] []) = .error error ∧
      read .strict (declaration [.object []] [.object [], .object []] [.object []]) =
        .error error := by
  intro argument declaration node error
  have h : read .strict (declaration [] [] []) = .error error := rfl
  have hothers {before after : List (String × Json)} {attr : String} {value value' : Json}
      {other : String} (hother : other ≠ attr) :
      SameIn (before ++ (attr, value) :: after) (before ++ (attr, value') :: after) other := by
    simp [SameIn, Json.attribute?, List.lookup_append, List.lookup_cons, beq_false_of_ne hother]
  refine ⟨h, first_failure_stands h ?_⟩
  refine .member (fun _ hother _ ↦ @hothers [_] [] _ _ _ _ hother) ?_
  refine @SlotAgreesUpTo.item _ _ [] _ _ _ _ ?_ (by simp [Json.shape])
  refine .member (fun _ hother _ ↦ @hothers [_] [] _ _ _ _ hother) (.block ?_)
  refine .member (fun _ hother _ ↦ @hothers [] [] _ _ _ _ hother) ?_
  refine @SlotAgreesUpTo.item _ _ [] _ _ _ _ ?_ (by simp [Json.shape])
  refine .member (fun _ hother _ ↦ @hothers [_] [] _ _ _ _ hother) (.block ?_)
  refine .member (fun _ hother _ ↦ @hothers [_] [] _ _ _ _ hother) (.block ?_)
  refine .member (fun _ hother _ ↦ @hothers [_] [] _ _ _ _ hother) ?_
  exact @SlotAgreesUpTo.item _ _ [] _ _ _ _ (.same argument) (by simp [Json.shape])

end DeclaredSource.Declaration
