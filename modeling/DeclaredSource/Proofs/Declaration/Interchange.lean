import DeclaredSource.Proofs.Declaration.Editing
import DeclaredSource.Proofs.Declaration.Relocation

/-!
# Expressions in another place

An expression may stand in an expression statement, in a return that gives one value, and in the
list of a return that gives several. What it means is the same in all of these places. When a value
is put at such a place of a declaration that can be read, reading the whole comes down to reading
that value alone; this is shown one level at a time, from the file to the statement, and the levels
are joined along the path.
-/

namespace DeclaredSource

open FirstFailure

namespace Declaration

open Block

section Hosts

variable {α β γ : Type} {outer : Block → Except Error α} {middle : Block → Except Error β}
  {inner : Block → Except Error γ} {value found last : Json} {path rest : List Segment}

/-- Whatever is put at the place that the path leads to, the outer reader makes of the whole what
the inner one makes of it alone, and this is found again as a part of the result. -/
def Hosts (outer : Block → Except Error α) (inner : Block → Except Error β) (value : Json)
    (path : List Segment) (part? : α → Option β) : Prop :=
  ∃ fill : β → α, (∀ part, part? (fill part) = some part) ∧
    ∀ new : Json, new.isNull = false → readAlone outer (value.put path new) =
      fill <$> (readAlone inner new).mapError (·.below ⟨path⟩)

theorem Hosts.trans {part? : α → Option β} {inside? : β → Option γ}
    (h : Hosts outer middle value path part?) (h' : Hosts middle inner found rest inside?)
    (hfollow : value.follow path = some found) (hrest : found.follow rest = some last) :
    Hosts outer inner value (path ++ rest) fun result ↦ (part? result).bind inside? := by
  obtain ⟨fill, hpart, hread⟩ := h
  obtain ⟨fill', hinside, hread'⟩ := h'
  refine ⟨fill ∘ fill', fun part ↦ ?_, fun new hnew ↦ ?_⟩
  · simp only [Function.comp_apply, hpart, Option.bind_some, hinside]
  · rw [Json.put_append hfollow, hread _ (Json.isNull_put hrest hnew), hread' new hnew,
      mapError_map, mapError_mapError, Functor.map_map]
    congr 2
    funext error
    exact error.below_below ⟨rest⟩ ⟨path⟩

/-- A part of what can be read can be read itself. -/
theorem Hosts.exists_part {part? : α → Option β} {result : α}
    (h : Hosts outer middle value path part?) (hfollow : value.follow path = some found)
    (hnull : found.isNull = false) (hread : readAlone outer value = .ok result) :
    ∃ part, readAlone middle found = .ok part ∧ part? result = some part := by
  obtain ⟨fill, hpart, hfill⟩ := h
  have hput := hfill found hnull
  rw [Json.put_follow hfollow, hread] at hput
  obtain ⟨part, hfound, rfl⟩ := map_eq_ok.1 hput.symm
  exact ⟨part, mapError_eq_ok.1 hfound, hpart part⟩

variable {block : Block} {attr : String} {items : List Json} {index : Nat}

/-- A block at the root with another value for the attribute. -/
structure Changed (block : Block) (attr : String) (new : Json) (changed : Block) : Prop where
  place : changed.place = block.place
  inside : changed.value.attribute? attr = some new
  others : ∀ other, other ≠ attr → changed.value.attribute? other = block.value.attribute? other

theorem changed_setField (hattr : block.value.attribute? attr = some found) {new : Json}
    (hnew : new.isNull = false) :
    Changed block attr new ⟨Json.setField block.fields attr new, block.place⟩ where
  place := rfl
  inside := Json.attribute?_setField hattr hnew
  others _ hother := Json.attribute?_setField_of_ne hattr hother

theorem Hosts.of_member {part? : α → Option β} (fill : β → α)
    (hpart : ∀ part, part? (fill part) = some part) (hroot : block.place = .root)
    (hattr : block.value.attribute? attr = some found)
    (h : ∀ changed new, Changed block attr new changed → outer changed =
      fill <$> (readAlone middle new).mapError (·.below (changed.place.member attr))) :
    Hosts outer middle block.value [.member attr] part? := by
  refine ⟨fill, hpart, fun new hnew ↦ ?_⟩
  have hchanged := h _ new (changed_setField hattr hnew)
  rw [hroot] at hchanged
  rw [Block.value, Json.put_member (Json.lookup_of_attribute? hattr)]
  exact hchanged

theorem Hosts.of_item {part? : α → Option β} (fill : β → α)
    (hpart : ∀ part, part? (fill part) = some part) (hroot : block.place = .root)
    (hattr : block.value.attribute? attr = some (.array items)) (hindex : index < items.length)
    (h : ∀ changed new, Changed block attr (.array (items.set index new)) changed →
      outer changed = fill <$>
        (readAlone middle new).mapError (·.below ((changed.place.member attr).item index))) :
    Hosts outer middle block.value [.member attr, .item index] part? := by
  refine ⟨fill, hpart, fun new hnew ↦ ?_⟩
  have hchanged := h _ new (changed_setField hattr rfl)
  rw [hroot] at hchanged
  rw [Block.value, Json.put_member (Json.lookup_of_attribute? hattr),
    Json.put_item (List.getElem?_eq_getElem hindex)]
  exact hchanged

/-- The first item that cannot be read is at fault, whether it is an object or not. -/
theorem ItemFails.of_first {place : Place} {before after : List Json} {error : Error}
    (hsplit : items = before ++ value :: after)
    (hbefore : ∀ other ∈ before, ∃ result, readAlone middle other = .ok result)
    (hafter : ∀ other ∈ after, other.shape = .object)
    (hfails : readAlone middle value = .error error) :
    ItemFails middle items place (error.below (place.item before.length)) := by
  have hobjects : ∀ other ∈ before, other.shape = .object := fun other hother ↦
    shape_of_readAlone (hbefore other hother).choose_spec
  by_cases hshape : value.shape = .object
  · refine .inside hsplit ?_ hbefore hfails
    rw [hsplit, List.forall_mem_append, List.forall_mem_cons]
    exact ⟨hobjects, hshape, hafter⟩
  · rw [readAlone, ofJson_misfit hshape] at hfails
    cases hfails
    rw [Error.below, Place.root_below]
    exact .misfit hsplit hobjects hshape

/-- When all of the items can be read, putting another one among them comes to reading that one. -/
theorem Movable.readItems_set {place : Place} {results : List β} (hmove : Movable middle)
    (h : readItems middle items place = .ok results) (hindex : index < items.length) (new : Json) :
    readItems middle (items.set index new) place =
      results.set index <$> (readAlone middle new).mapError (·.below (place.item index)) := by
  have heach := hmove.readItems_eq_ok.1 h
  have hread : ∀ item ∈ items, ∃ result, readAlone middle item = .ok result :=
    forall_mem_of_mapM (mapM_eq_ok.2 heach)
  rw [List.set_eq_take_append_cons_drop, if_pos hindex]
  cases hnew : readAlone middle new with
  | ok result =>
    have hresults : results.set index result =
        results.take index ++ result :: results.drop (index + 1) := by
      rw [List.set_eq_take_append_cons_drop, if_pos (heach.length_eq ▸ hindex)]
    apply hmove.readItems_eq_ok.2
    rw [hresults]
    exact List.rel_append (List.forall₂_take index heach)
      (.cons hnew (List.forall₂_drop (index + 1) heach))
  | error error =>
    have hlength : (items.take index).length = index :=
      List.length_take_of_le (Nat.le_of_lt hindex)
    have hfails : ItemFails middle (items.take index ++ new :: items.drop (index + 1)) place
        (error.below (place.item (items.take index).length)) := by
      refine .of_first rfl (fun other hother ↦ ?_) (fun other hother ↦ ?_) hnew
      · exact hread other (List.mem_of_mem_take hother)
      · exact shape_of_readAlone (hread other (List.mem_of_mem_drop hother)).choose_spec
    rw [hlength] at hfails
    exact hmove.readItems_eq_error.2 hfails

end Hosts

/-! ## Levels -/

section Levels

variable {mode : Mode} {value found : Json} {items : List Json} {index : Nat}

theorem exists_block {α : Type} {reader : Block → Except Error α} {result : α}
    (h : readAlone reader value = .ok result) :
    ∃ block, value = block.value ∧ block.place = .root ∧ reader block = .ok result := by
  cases value with
  | object fields => exact ⟨⟨fields, .root⟩, rfl, rfl, h⟩
  | _ => cases h

theorem hosts_function {outline : Outline.File} (h : readAlone (readFile mode) value = .ok outline)
    (hfollow : value.follow [.member "functions", .item index] = some found) :
    Hosts (readFile mode) (readFunction mode) value [.member "functions", .item index]
      (·.functions[index]?) := by
  obtain ⟨items, hitems, hitem⟩ := Json.item_of_follow hfollow
  obtain ⟨hindex, -⟩ := List.getElem?_eq_some_iff.1 hitem
  obtain ⟨block, rfl, hroot, hread⟩ := exists_block h
  rw [readFile_eq] at hread
  obtain ⟨package, hpackage, hread⟩ := bind_eq_ok.1 hread
  obtain ⟨imports, himports, hread⟩ := bind_eq_ok.1 hread
  obtain ⟨functions, hfunctions, hread⟩ := bind_eq_ok.1 hread
  rw [blocks_bind hitems] at hfunctions
  have hlength := ((movable_readFunction mode).readItems_eq_ok.1 hfunctions).length_eq
  refine .of_item (fun function ↦ ⟨package, imports, functions.set index function⟩)
    (fun function ↦ List.getElem?_set_self (hlength ▸ hindex)) hroot hitems hindex
    fun changed new hchanged ↦ ?_
  rw [readFile_eq, requiredText_congr hchanged.place (hchanged.others "packageName" (by decide)),
    hpackage, ok_bind, blocks_congr hchanged.place (hchanged.others "imports" (by decide)),
    himports, ok_bind, blocks_bind hchanged.inside, hchanged.place,
    (movable_readFunction mode).readItems_set hfunctions hindex, bind_map_left]
  rfl

theorem hosts_body {function : Outline.Function}
    (h : readAlone (readFunction mode) value = .ok function)
    (hfollow : value.follow [.member "body"] = some found) (hnull : found.isNull = false) :
    Hosts (readFunction mode) (fun block ↦ readBody mode (some block)) value [.member "body"]
      (some ·.body) := by
  have hbody := Json.attribute?_of_follow hfollow hnull
  obtain ⟨block, rfl, hroot, hread⟩ := exists_block h
  rw [readFunction_eq] at hread
  obtain ⟨name, hname, hread⟩ := bind_eq_ok.1 hread
  obtain ⟨fields, hfields, hread⟩ := bind_eq_ok.1 hread
  have hmove : Movable fun block ↦ readBody mode (some block) :=
    fun block outer ↦ readBody_below mode (some block) outer
  refine .of_member (fun body ↦ ⟨name, fields.1, fields.2, body⟩) (fun _ ↦ rfl) hroot hbody
    fun changed new hchanged ↦ ?_
  rw [readFunction_eq, requiredText_congr hchanged.place (hchanged.others "name" (by decide)),
    hname, ok_bind, optionalBlock_congr hchanged.place (hchanged.others "signature" (by decide)),
    hfields, ok_bind, hmove.optionalBlock_bind hchanged.inside]
  rfl

theorem hosts_statement {statements : List Outline.Statement}
    (h : readAlone (fun block ↦ readBody mode (some block)) value = .ok statements)
    (hfollow : value.follow [.member "statements", .item index] = some found) :
    Hosts (fun block ↦ readBody mode (some block)) (readStatement mode) value
      [.member "statements", .item index] (·[index]?) := by
  obtain ⟨items, hitems, hitem⟩ := Json.item_of_follow hfollow
  obtain ⟨hindex, -⟩ := List.getElem?_eq_some_iff.1 hitem
  obtain ⟨block, rfl, hroot, hread⟩ := exists_block h
  have hstatements := (blocks_bind hitems).symm.trans hread
  have hlength := ((movable_readStatement mode).readItems_eq_ok.1 hstatements).length_eq
  refine .of_item (statements.set index) (fun _ ↦ List.getElem?_set_self (hlength ▸ hindex)) hroot
    hitems hindex fun changed new hchanged ↦ (blocks_bind hchanged.inside).trans ?_
  rw [hchanged.place]
  exact (movable_readStatement mode).readItems_set hstatements hindex new

/-- Where an expression stands in a statement: by itself, or in the list of a return. -/
inductive Spot where
  | alone
  | listed (index : Nat)

namespace Spot

def segments : Spot → List Segment
  | alone => [.member "expression"]
  | listed index => [.member "results", .item index]

/-- The expression that a statement has at the spot. -/
def expression? : Spot → Outline.Statement → Option Outline.Expression
  | alone, .expression value => some value
  | alone, .ret [value] => some value
  | listed index, .ret values => values[index]?
  | _, _ => none

end Spot

theorem Changed.readStatement {block changed : Block} {attr : String} {new : Json}
    {kind : StatementKind} (h : Changed block attr new changed) (hattr : "kind" ≠ attr)
    (hkind : block.kind StatementKind = .ok kind) :
    readStatement mode changed = readOfKind mode changed kind := by
  rw [readStatement_eq, kind_congr h.place (h.others "kind" hattr), hkind, ok_bind]

theorem hosts_alone {statement : Outline.Statement}
    (h : readAlone (readStatement mode) value = .ok statement)
    (hfollow : value.follow [.member "expression"] = some found) (hnull : found.isNull = false) :
    Hosts (readStatement mode) (readExpression mode) value [.member "expression"]
      Spot.alone.expression? := by
  have hexpression := Json.attribute?_of_follow hfollow hnull
  obtain ⟨block, rfl, hroot, hread⟩ := exists_block h
  rw [readStatement_eq] at hread
  obtain ⟨kind, hkind, hread⟩ := bind_eq_ok.1 hread
  cases kind with
  | expression =>
    rw [readOfKind, readExpressionStatement_eq] at hread
    obtain ⟨_, hrefuse, -⟩ := bind_eq_ok.1 hread
    refine .of_member .expression (fun _ ↦ rfl) hroot hexpression fun changed new hchanged ↦ ?_
    have hrefuse' : refuseResults mode changed = refuseResults mode block := by
      rw [refuseResults, refuseResults, hchanged.place,
        has_congr (hchanged.others "results" (by decide))]
    rw [hchanged.readStatement (by decide) hkind, readOfKind, readExpressionStatement_eq, hrefuse',
      hrefuse, ok_bind, (movable_readExpression mode).requiredBlock_bind hchanged.inside]
  | ret =>
    rw [readOfKind, readReturn_eq] at hread
    obtain ⟨one, hone, -⟩ := bind_eq_ok.1 hread
    obtain ⟨rfl, hresults⟩ := (givesOne_eq_ok block).1 hone
    refine .of_member (fun value ↦ .ret [value]) (fun _ ↦ rfl) hroot hexpression
      fun changed new hchanged ↦ ?_
    have hone' : givesOne changed = .ok true := by
      rw [has_eq, hexpression] at hresults
      rw [givesOne_eq_ok, has_eq, hchanged.inside,
        has_congr (hchanged.others "results" (by decide))]
      exact ⟨rfl, fun _ ↦ hresults rfl⟩
    rw [hchanged.readStatement (by decide) hkind, readOfKind, readReturn_eq, hone', ok_bind,
      if_pos rfl, (movable_readExpression mode).requiredBlock_bind hchanged.inside]

theorem readReturn_of_ret {block : Block} {values : List Outline.Expression}
    (h : readStatement mode block = .ok (.ret values)) :
    block.kind StatementKind = .ok .ret ∧ readReturn mode block = .ok (.ret values) := by
  rw [readStatement_eq] at h
  obtain ⟨kind, hkind, h⟩ := bind_eq_ok.1 h
  cases kind with
  | ret => exact ⟨hkind, h⟩
  | expression =>
    rw [readOfKind, readExpressionStatement_eq] at h
    obtain ⟨_, -, h⟩ := bind_eq_ok.1 h
    obtain ⟨_, -, hmap⟩ := map_eq_ok.1 h
    cases hmap

/-- A return that has a list has no value by itself, and its values are the items. -/
theorem readItems_of_ret {block : Block} {values : List Outline.Expression}
    (h : readReturn mode block = .ok (.ret values))
    (hitems : block.value.attribute? "results" = some (.array items)) :
    block.has "expression" = false ∧
      readItems (readExpression mode) items (block.place.member "results") = .ok values := by
  rw [readReturn_eq] at h
  obtain ⟨one, hone, h⟩ := bind_eq_ok.1 h
  have hresults : block.has "results" = true := by rw [has_eq, hitems]; rfl
  obtain ⟨hexpression, hnone⟩ := (givesOne_eq_ok block).1 hone
  cases one with
  | true => cases (hnone rfl).symm.trans hresults
  | false =>
    rw [if_neg (by decide), blocks_bind hitems] at h
    obtain ⟨values, hvalues, hmap⟩ := map_eq_ok.1 h
    cases hmap
    exact ⟨hexpression, hvalues⟩

theorem hosts_listed {values : List Outline.Expression}
    (h : readAlone (readStatement mode) value = .ok (.ret values))
    (hfollow : value.follow [.member "results", .item index] = some found) :
    Hosts (readStatement mode) (readExpression mode) value [.member "results", .item index]
      (Spot.listed index).expression? := by
  obtain ⟨items, hitems, hitem⟩ := Json.item_of_follow hfollow
  obtain ⟨hindex, -⟩ := List.getElem?_eq_some_iff.1 hitem
  obtain ⟨block, rfl, hroot, hread⟩ := exists_block h
  obtain ⟨hkind, hreturn⟩ := readReturn_of_ret hread
  obtain ⟨hexpression, hvalues⟩ := readItems_of_ret hreturn hitems
  have hlength := ((movable_readExpression mode).readItems_eq_ok.1 hvalues).length_eq
  refine .of_item (fun value ↦ .ret (values.set index value))
    (fun _ ↦ List.getElem?_set_self (hlength ▸ hindex)) hroot hitems hindex
    fun changed new hchanged ↦ ?_
  have hone : givesOne changed = .ok false := by
    rw [givesOne_eq_ok, has_congr (hchanged.others "expression" (by decide))]
    exact ⟨hexpression, fun h ↦ by cases h⟩
  rw [hchanged.readStatement (by decide) hkind, readOfKind, readReturn_eq, hone, ok_bind,
    if_neg (by decide), blocks_bind hchanged.inside, hchanged.place,
    (movable_readExpression mode).readItems_set hvalues hindex, Functor.map_map]

theorem hosts_spot {spot : Spot} {statement : Outline.Statement}
    (h : readAlone (readStatement mode) value = .ok statement)
    (hfollow : value.follow spot.segments = some found) (hnull : found.isNull = false)
    (hspot : (spot.expression? statement).isSome) :
    Hosts (readStatement mode) (readExpression mode) value spot.segments spot.expression? := by
  cases spot with
  | alone => exact hosts_alone h hfollow hnull
  | listed index =>
    cases statement with
    | expression => cases hspot
    | ret values => exact hosts_listed h hfollow

def statementPlace (function statement : Nat) : Place :=
  ⟨[.member "functions", .item function, .member "body", .member "statements", .item statement]⟩

def statement? (function statement : Nat) (outline : Outline.File) : Option Outline.Statement :=
  outline.functions[function]?.bind (·.body[statement]?)

theorem hosts_statementPlace {function statement : Nat} {outline : Outline.File}
    (h : read mode value = .ok outline)
    (hfollow : value.follow (statementPlace function statement).segments = some found)
    (hnull : found.isNull = false) :
    Hosts (readFile mode) (readStatement mode) value (statementPlace function statement).segments
      (statement? function statement) := by
  have hpath : (statementPlace function statement).segments =
      [.member "functions", .item function] ++
        ([.member "body"] ++ [.member "statements", .item statement]) := rfl
  rw [hpath, Json.follow_append, Option.bind_eq_some_iff] at hfollow
  obtain ⟨inFile, hinFile, hfollow⟩ := hfollow
  rw [Json.follow_append, Option.bind_eq_some_iff] at hfollow
  obtain ⟨inFunction, hinFunction, hinBody⟩ := hfollow
  have hbodyNull := Json.isNull_of_follow hinBody hnull
  have hfunctionNull := Json.isNull_of_follow hinFunction hbodyNull
  have hfile := hosts_function h hinFile
  obtain ⟨_, hfunction, -⟩ := hfile.exists_part hinFile hfunctionNull h
  have hfunctionHosts := hosts_body hfunction hinFunction hbodyNull
  obtain ⟨_, hbody, -⟩ := hfunctionHosts.exists_part hinFunction hbodyNull hfunction
  have hbodyHosts := hosts_statement hbody hinBody
  have hrest := hfunctionHosts.trans hbodyHosts hinFunction hinBody
  have hinRest : inFile.follow ([.member "body"] ++ [.member "statements", .item statement]) =
      some found := by
    rw [Json.follow_append, hinFunction]
    exact hinBody
  exact hfile.trans hrest hinFile hinRest

/-- A place for an expression in a declaration. -/
structure Site where
  function : Nat
  statement : Nat
  spot : Spot

namespace Site

def place (site : Site) : Place :=
  ⟨(statementPlace site.function site.statement).segments ++ site.spot.segments⟩

/-- The expression that an outline has at the site. -/
def expression? (site : Site) (outline : Outline.File) : Option Outline.Expression :=
  (statement? site.function site.statement outline).bind site.spot.expression?

/-- The declaration can be read, and an expression is read from it at the site. -/
def StandsIn (site : Site) (mode : Mode) (declaration : Json) : Prop :=
  ∃ outline value, read mode declaration = .ok outline ∧
    declaration.follow site.place.segments = some value ∧ value.isNull = false ∧
    (site.expression? outline).isSome

theorem StandsIn.hosts {site : Site} (h : site.StandsIn mode value) :
    Hosts (readFile mode) (readExpression mode) value site.place.segments site.expression? := by
  obtain ⟨outline, found, hread, hfollow, hnull, hsome⟩ := h
  rw [place, Json.follow_append, Option.bind_eq_some_iff] at hfollow
  obtain ⟨statement, hstatement, hspot⟩ := hfollow
  have hstatementNull := Json.isNull_of_follow hspot hnull
  have hfile := hosts_statementPlace hread hstatement hstatementNull
  obtain ⟨part, hpart, hfound⟩ := hfile.exists_part hstatement hstatementNull hread
  rw [expression?, hfound, Option.bind_some] at hsome
  exact hfile.trans (hosts_spot hpart hspot hnull hsome) hstatement hspot

end Site

end Levels

/-! ## Interchange -/

/-- What reading the two declarations with the expression comes to: the same expression at the two
sites, or the same error but for the place at which its node begins. -/
def MeansTheSame (mode : Mode) (first second : Json) (site site' : Site) : Prop :=
  (∃ outline outline' value, read mode first = .ok outline ∧ read mode second = .ok outline' ∧
    site.expression? outline = some value ∧ site'.expression? outline' = some value) ∨
  ∃ error : Error, read mode first = .error (error.below site.place) ∧
    read mode second = .error (error.below site'.place)

theorem meansTheSame_of_standsIn {mode : Mode} {first second : Json} {site site' : Site}
    (h : site.StandsIn mode first) (h' : site'.StandsIn mode second) {expression : Json}
    (hexpression : expression.isNull = false) :
    MeansTheSame mode (first.put site.place.segments expression)
      (second.put site'.place.segments expression) site site' := by
  obtain ⟨fill, hpart, hread⟩ := h.hosts
  obtain ⟨fill', hpart', hread'⟩ := h'.hosts
  have hfirst := hread expression hexpression
  have hsecond := hread' expression hexpression
  rw [← read_eq] at hfirst hsecond
  cases halone : readAlone (readExpression mode) expression with
  | ok value =>
    rw [halone] at hfirst hsecond
    exact .inl ⟨_, _, value, hfirst, hsecond, hpart value, hpart' value⟩
  | error error =>
    rw [halone] at hfirst hsecond
    exact .inr ⟨error, hfirst, hsecond⟩

/-- A return that gives its value by itself. -/
structure ReturnsAlone (statement value : Json) : Prop where
  kind : statement.kindText? = some (Vocabulary.spelling StatementKind.ret)
  expression : statement.attribute? "expression" = some value
  results : statement.attribute? "results" = none

/-- A return that gives its value as the one item of its list. -/
structure ReturnsListed (statement value : Json) : Prop where
  kind : statement.kindText? = some (Vocabulary.spelling StatementKind.ret)
  expression : statement.attribute? "expression" = none
  results : statement.attribute? "results" = some (.array [value])

section Returns

variable {mode : Mode} {statement value : Json} {result : Outline.Statement}

variable (mode) in
theorem readAlone_of_ret (h : statement.kindText? = some (Vocabulary.spelling StatementKind.ret)) :
    ∃ block : Block, statement = block.value ∧
      readAlone (readStatement mode) statement = readReturn mode block := by
  cases statement with
  | object fields =>
    have hkind : (⟨fields, .root⟩ : Block).kind StatementKind = .ok .ret :=
      kind_eq_ok.2 ⟨_, h, read?_spelling_statement .ret⟩
    refine ⟨⟨fields, .root⟩, rfl, ?_⟩
    change readStatement mode ⟨fields, .root⟩ = _
    rw [readStatement_eq, hkind, ok_bind, readOfKind]
  | _ => cases h

theorem ReturnsAlone.read_eq_ok (h : ReturnsAlone statement value) :
    readAlone (readStatement mode) statement = .ok result ↔
      ∃ part, readAlone (readExpression mode) value = .ok part ∧ .ret [part] = result := by
  obtain ⟨block, rfl, hread⟩ := readAlone_of_ret mode h.kind
  have hone : givesOne block = .ok true := by
    rw [givesOne_eq_ok, has_eq, has_eq, h.expression, h.results]
    exact ⟨rfl, fun _ ↦ rfl⟩
  rw [hread, readReturn_eq, hone, ok_bind, if_pos rfl,
    (movable_readExpression mode).requiredBlock_bind h.expression, map_eq_ok]
  simp only [mapError_eq_ok]

theorem ReturnsListed.read_eq_ok (h : ReturnsListed statement value) :
    readAlone (readStatement mode) statement = .ok result ↔
      ∃ part, readAlone (readExpression mode) value = .ok part ∧ .ret [part] = result := by
  obtain ⟨block, rfl, hread⟩ := readAlone_of_ret mode h.kind
  have hone : givesOne block = .ok false := by
    rw [givesOne_eq_ok, has_eq, h.expression]
    exact ⟨rfl, fun h ↦ by cases h⟩
  rw [hread, readReturn_eq, hone, ok_bind, if_neg (by decide), blocks_bind h.results, map_eq_ok]
  simp only [(movable_readExpression mode).readItems_eq_ok]
  constructor
  · rintro ⟨values, hvalues, rfl⟩
    cases hvalues with
    | cons hpart hrest =>
      cases hrest
      exact ⟨_, hpart, rfl⟩
  · rintro ⟨part, hpart, rfl⟩
    exact ⟨[part], .cons hpart .nil, rfl⟩

end Returns

/-- Two statements of which the same is read can be exchanged. -/
theorem read_put_of_statement {mode : Mode} {declaration found statement statement' : Json}
    {function index : Nat} {outline : Outline.File}
    (hfollow : declaration.follow (statementPlace function index).segments = some found)
    (hnull : statement.isNull = false) (hnull' : statement'.isNull = false)
    (hsame : ∀ result, readAlone (readStatement mode) statement = .ok result →
      readAlone (readStatement mode) statement' = .ok result)
    (h : read mode (declaration.put (statementPlace function index).segments statement) =
      .ok outline) :
    read mode (declaration.put (statementPlace function index).segments statement') =
      .ok outline := by
  have hstatement := Json.follow_put hfollow statement
  have hhosts := hosts_statementPlace h hstatement hnull
  obtain ⟨fill, -, hread⟩ := hhosts
  have hfirst := hread statement hnull
  have hsecond := hread statement' hnull'
  rw [Json.put_put hfollow, ← read_eq] at hfirst hsecond
  rw [h] at hfirst
  obtain ⟨part, hpart, rfl⟩ := map_eq_ok.1 hfirst.symm
  rw [hsecond, hsame part (mapError_eq_ok.1 hpart)]
  rfl

/-- An expression means the same wherever it stands, so a return may give its value in two ways. -/
theorem expression_means_the_same (mode : Mode) :
    (∀ (first second expression : Json) (site site' : Site), expression.shape = .object →
      site.StandsIn mode first → site'.StandsIn mode second →
      MeansTheSame mode (first.put site.place.segments expression)
        (second.put site'.place.segments expression) site site') ∧
    ∀ (declaration found value alone listed : Json) (function index : Nat) (outline : Outline.File),
      declaration.follow (statementPlace function index).segments = some found →
      ReturnsAlone alone value → ReturnsListed listed value →
      (read mode (declaration.put (statementPlace function index).segments alone) = .ok outline ↔
        read mode (declaration.put (statementPlace function index).segments listed) =
          .ok outline) := by
  refine ⟨fun first second expression site site' hobject h h' ↦ ?_, ?_⟩
  · refine meansTheSame_of_standsIn h h' ?_
    cases expression with
    | object => rfl
    | _ => cases hobject
  · intro declaration found value alone listed function index outline hfollow halone hlisted
    obtain ⟨_, rfl, -⟩ := readAlone_of_ret mode halone.kind
    obtain ⟨_, rfl, -⟩ := readAlone_of_ret mode hlisted.kind
    constructor
    · refine read_put_of_statement hfollow rfl rfl fun result hread ↦ ?_
      exact hlisted.read_eq_ok.2 (halone.read_eq_ok.1 hread)
    · refine read_put_of_statement hfollow rfl rfl fun result hread ↦ ?_
      exact halone.read_eq_ok.2 (hlisted.read_eq_ok.1 hread)

/-- A call that cannot be read, in an expression statement and as the second value of a return; and
a return of a name, written in both ways. -/
theorem expression_means_the_same_in_return :
    let name (text : String) : Json :=
      .object [("kind", .string "identifier"), ("identifier", .object [("name", .string text)])]
    let declaration (statement : Json) : Json := .object [("packageName", .string "main"),
      ("functions", .array [.object [("name", .string "g"),
        ("body", .object [("statements", .array [statement])])]])]
    let first := declaration
      (.object [("kind", .string "expression"), ("expression", name "x")])
    let second := declaration
      (.object [("kind", .string "return"), ("results", .array [name "y", name "z"])])
    let site : Site := ⟨0, 0, .alone⟩
    let site' : Site := ⟨0, 0, .listed 1⟩
    let call : Json := .object [("kind", .string "call"), ("call", .object [
      ("func", .object [("prop", .string "f")]),
      ("args", .array [.object [("kind", .string "float"), ("value", .string "1.5")]])])]
    let alone : Json := .object [("kind", .string "return"), ("expression", name "x")]
    let listed : Json := .object [("kind", .string "return"), ("results", .array [name "x"])]
    MeansTheSame .lenient (first.put site.place.segments call)
        (second.put site'.place.segments call) site site' ∧
      ∀ outline, read .lenient (first.put (statementPlace 0 0).segments alone) = .ok outline ↔
        read .lenient (first.put (statementPlace 0 0).segments listed) = .ok outline := by
  intro name declaration first second site site' call alone listed
  have hmeans := expression_means_the_same .lenient
  refine ⟨hmeans.1 first second call site site' rfl ⟨_, _, rfl, rfl, rfl, rfl⟩
    ⟨_, _, rfl, rfl, rfl, rfl⟩, fun outline ↦ ?_⟩
  exact hmeans.2 first _ (name "x") alone listed 0 0 outline rfl ⟨rfl, rfl, rfl⟩ ⟨rfl, rfl, rfl⟩

end Declaration

end DeclaredSource
