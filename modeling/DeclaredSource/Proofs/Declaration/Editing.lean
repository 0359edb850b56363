import DeclaredSource.Proofs.Declaration.Blame

/-!
# Putting a value at a place

A path that leads to a value of a declaration tells where another value can be put instead. The two
obey the laws that one expects: what was put is found again, putting back what was there changes
nothing, the last value that was put counts, and a path in two parts is gone in two steps. For a
block, the attribute that the path goes through is the only one that changes.
-/

namespace DeclaredSource

namespace Json

open Declaration

/-- Another value for the field that counts. -/
def setField (fields : List (String × Json)) (name : String) (new : Json) :
    List (String × Json) :=
  match fields with
  | [] => []
  | (key, value) :: rest =>
    if key = name then (key, new) :: rest else (key, value) :: setField rest name new

/-- Another value at the place that a path leads to, if it leads to one. -/
def put : Json → List Segment → Json → Json
  | _, [], new => new
  | .object fields, .member name :: rest, new =>
    match fields.lookup name with
    | some value => .object (setField fields name (put value rest new))
    | none => .object fields
  | .array items, .item index :: rest, new =>
    match items[index]? with
    | some value => .array (items.set index (put value rest new))
    | none => .array items
  | value, _ :: _, _ => value

variable {fields : List (String × Json)} {name : String} {value inner new : Json}
  {path rest : List Segment}

theorem lookup_setField (h : (fields.lookup name).isSome) (new : Json) (other : String) :
    (setField fields name new).lookup other =
      if other = name then some new else fields.lookup other := by
  induction fields with
  | nil => cases h
  | cons field fields ih =>
    obtain ⟨key, value⟩ := field
    rw [setField]
    by_cases hkey : key = name
    · subst hkey
      by_cases hother : other = key <;> simp [List.lookup_cons, hother, beq_false_of_ne]
    · rw [if_neg hkey, List.lookup_cons, List.lookup_cons]
      have hname : (name == key) = false := beq_false_of_ne (Ne.symm hkey)
      rw [List.lookup_cons, hname] at h
      by_cases hother : other = key
      · subst hother
        simp [hkey]
      · rw [beq_false_of_ne hother]
        exact ih h

theorem setField_self (h : fields.lookup name = some value) :
    setField fields name value = fields := by
  induction fields with
  | nil => cases h
  | cons field fields ih =>
    obtain ⟨key, found⟩ := field
    rw [setField]
    by_cases hkey : key = name
    · subst hkey
      rw [List.lookup_cons_self] at h
      rw [if_pos rfl, Option.some.inj h]
    · rw [List.lookup_cons, beq_false_of_ne (Ne.symm hkey)] at h
      rw [if_neg hkey, ih h]

theorem setField_setField (first second : Json) :
    setField (setField fields name first) name second = setField fields name second := by
  induction fields with
  | nil => rfl
  | cons field fields ih =>
    obtain ⟨key, value⟩ := field
    rw [setField, setField]
    split
    · next hkey => rw [setField, if_pos hkey]
    · next hkey => rw [setField, if_neg hkey, ih]

theorem put_member (h : fields.lookup name = some inner) :
    (Json.object fields).put (.member name :: rest) new =
      .object (setField fields name (inner.put rest new)) := by
  rw [put, h]

theorem put_item {items : List Json} {index : Nat} (h : items[index]? = some inner) :
    (Json.array items).put (.item index :: rest) new =
      .array (items.set index (inner.put rest new)) := by
  rw [put, h]

/-- What a path leads to, taken apart at its first segment. -/
theorem follow_cons {segment : Segment} (h : value.follow (segment :: rest) = some inner) :
    (∃ fields name found, value = .object fields ∧ segment = .member name ∧
      fields.lookup name = some found ∧ found.follow rest = some inner) ∨
    ∃ items index found, value = .array items ∧ segment = .item index ∧
      items[index]? = some found ∧ found.follow rest = some inner := by
  match value, segment with
  | .object fields, .member name =>
    obtain ⟨found, hfound, hrest⟩ := Option.bind_eq_some_iff.1 h
    exact .inl ⟨fields, name, found, rfl, rfl, hfound, hrest⟩
  | .array items, .item index =>
    obtain ⟨found, hfound, hrest⟩ := Option.bind_eq_some_iff.1 h
    exact .inr ⟨items, index, found, rfl, rfl, hfound, hrest⟩

theorem put_append (h : value.follow path = some inner) (rest : List Segment) :
    value.put (path ++ rest) new = value.put path (inner.put rest new) := by
  induction path generalizing value with
  | nil =>
    cases h
    rfl
  | cons segment path ih =>
    rcases follow_cons h with ⟨fields, name, found, rfl, rfl, hfound, hrest⟩ |
      ⟨items, index, found, rfl, rfl, hfound, hrest⟩
    · rw [List.cons_append, put_member hfound, put_member hfound, ih hrest]
    · rw [List.cons_append, put_item hfound, put_item hfound, ih hrest]

theorem put_follow (h : value.follow path = some inner) : value.put path inner = value := by
  induction path generalizing value with
  | nil =>
    cases h
    rfl
  | cons segment path ih =>
    rcases follow_cons h with ⟨fields, name, found, rfl, rfl, hfound, hrest⟩ |
      ⟨items, index, found, rfl, rfl, hfound, hrest⟩
    · rw [put_member hfound, ih hrest, setField_self hfound]
    · obtain ⟨hindex, rfl⟩ := List.getElem?_eq_some_iff.1 hfound
      rw [put_item hfound, ih hrest, List.set_getElem_self]

theorem follow_put (h : value.follow path = some inner) (new : Json) :
    (value.put path new).follow path = some new := by
  induction path generalizing value with
  | nil => rfl
  | cons segment path ih =>
    rcases follow_cons h with ⟨fields, name, found, rfl, rfl, hfound, hrest⟩ |
      ⟨items, index, found, rfl, rfl, hfound, hrest⟩
    · have hlookup := lookup_setField (Option.isSome_of_mem hfound) (found.put path new) name
      rw [if_pos rfl] at hlookup
      rw [put_member hfound, follow, hlookup]
      exact ih hrest
    · obtain ⟨hindex, -⟩ := List.getElem?_eq_some_iff.1 hfound
      rw [put_item hfound, follow, List.getElem?_set_self hindex]
      exact ih hrest

theorem put_put (h : value.follow path = some inner) (first second : Json) :
    (value.put path first).put path second = value.put path second := by
  induction path generalizing value with
  | nil => rfl
  | cons segment path ih =>
    rcases follow_cons h with ⟨fields, name, found, rfl, rfl, hfound, hrest⟩ |
      ⟨items, index, found, rfl, rfl, hfound, hrest⟩
    · have hlookup := lookup_setField (Option.isSome_of_mem hfound) (found.put path first) name
      rw [if_pos rfl] at hlookup
      rw [put_member hfound, put_member hlookup, put_member hfound, ih hrest, setField_setField]
    · obtain ⟨hindex, -⟩ := List.getElem?_eq_some_iff.1 hfound
      rw [put_item hfound, put_item (List.getElem?_set_self hindex), put_item hfound, ih hrest,
        List.set_set]

theorem isNull_put (h : value.follow path = some inner) (hnew : new.isNull = false) :
    (value.put path new).isNull = false := by
  cases path with
  | nil => exact hnew
  | cons segment path =>
    rcases follow_cons h with ⟨fields, name, found, rfl, rfl, hfound, -⟩ |
      ⟨items, index, found, rfl, rfl, hfound, -⟩
    · rw [put_member hfound]
      rfl
    · rw [put_item hfound]
      rfl

/-- Inside a value that is null there is nothing. -/
theorem isNull_of_follow (h : value.follow path = some inner) (hinner : inner.isNull = false) :
    value.isNull = false := by
  cases path with
  | nil => exact Option.some.inj h ▸ hinner
  | cons segment path =>
    rcases follow_cons h with ⟨fields, _, _, rfl, -⟩ | ⟨items, _, _, rfl, -⟩ <;> rfl

theorem attribute?_of_follow (h : value.follow [.member name] = some inner)
    (hinner : inner.isNull = false) : value.attribute? name = some inner := by
  rcases follow_cons h with ⟨fields, _, found, rfl, hname, hfound, hrest⟩ | ⟨_, _, _, _, h, _⟩
  · cases hname
    cases hrest
    simp [attribute?, hfound, hinner]
  · cases h

theorem item_of_follow {index : Nat} (h : value.follow [.member name, .item index] = some inner) :
    ∃ items, value.attribute? name = some (.array items) ∧ items[index]? = some inner := by
  rcases follow_cons h with ⟨fields, _, found, rfl, hname, hfound, hrest⟩ | ⟨_, _, _, _, h, _⟩
  · cases hname
    rcases follow_cons hrest with ⟨_, _, _, _, h, _⟩ | ⟨items, _, item, rfl, hindex, hitem, hlast⟩
    · cases h
    · cases hindex
      cases hlast
      exact ⟨items, by simp [attribute?, hfound, isNull], hitem⟩
  · cases h

theorem lookup_of_attribute? (h : (Json.object fields).attribute? name = some inner) :
    fields.lookup name = some inner :=
  (Option.filter_eq_some_iff.1 h).1

theorem attribute?_setField (h : (Json.object fields).attribute? name = some inner)
    (hnew : new.isNull = false) :
    (Json.object (setField fields name new)).attribute? name = some new := by
  have hlookup := lookup_of_attribute? h
  simp [attribute?, lookup_setField (Option.isSome_of_mem hlookup), hnew]

theorem attribute?_setField_of_ne (h : (Json.object fields).attribute? name = some inner)
    {other : String} (hother : other ≠ name) :
    (Json.object (setField fields name new)).attribute? other =
      (Json.object fields).attribute? other := by
  have hlookup := lookup_of_attribute? h
  simp [attribute?, lookup_setField (Option.isSome_of_mem hlookup), hother]

end Json

end DeclaredSource
