import DeclaredSource.Storage.FileError

/-!
# File trees

A tree of directories and files without links. A location is the list of names that lead to it,
innermost first, so the location of what contains it is its tail and the root is the empty list.
Whatever a tree contains is contained in a directory; both ways of changing a tree keep this, and
each changes what is found at one location only.
-/

namespace DeclaredSource.Storage

abbrev Location := List String

inductive Entry where
  | directory
  | file (contents : ByteArray)

instance : DecidableEq Entry
  | .directory, .directory => isTrue rfl
  | .directory, .file _ => isFalse Entry.noConfusion
  | .file _, .directory => isFalse Entry.noConfusion
  | .file first, .file second =>
    match ByteArray.instDecidableEq first second with
    | isTrue equal => isTrue (congrArg Entry.file equal)
    | isFalse different => isFalse fun equal ↦ different (Entry.file.inj equal)

abbrev Entries := List (Location × Entry)

namespace Entries

def get? : Entries → Location → Option Entry
  | [], _ => none
  | (key, entry) :: rest, place => if key = place then some entry else get? rest place

def without (place : Location) : Entries → Entries
  | [] => []
  | (key, entry) :: rest =>
    if key = place then without place rest else (key, entry) :: without place rest

theorem get?_without (entries : Entries) (place other : Location) :
    (entries.without place).get? other = if other = place then none else entries.get? other := by
  induction entries with
  | nil => simp [without, get?]
  | cons item rest ih =>
    obtain ⟨key, entry⟩ := item
    grind [without, get?]

/-- Whether nothing is directly inside the location. -/
def childless (entries : Entries) (place : Location) : Bool :=
  entries.all fun item ↦
    match item.1 with
    | [] => true
    | _ :: outer => outer ≠ place

theorem get?_eq_none_of_childless {entries : Entries} {place : Location}
    (h : entries.childless place = true) (name : String) :
    entries.get? (name :: place) = none := by
  induction entries with
  | nil => rfl
  | cons item rest ih =>
    obtain ⟨key, entry⟩ := item
    simp only [childless, List.all_cons, Bool.and_eq_true] at h
    rw [get?, if_neg]
    · exact ih h.2
    · rintro rfl
      simp at h

theorem get?_ne_none_of_mem {entries : Entries} {place : Location} {entry : Entry}
    (h : (place, entry) ∈ entries) : entries.get? place ≠ none := by
  induction entries with
  | nil => simp at h
  | cons item rest ih =>
    obtain ⟨key, other⟩ := item
    by_cases hkey : key = place
    · simp [get?, hkey]
    · have hmem : (place, entry) ∈ rest := by
        simpa [Prod.mk.injEq, Ne.symm hkey] using h
      simpa [get?, hkey] using ih hmem

/-- The root is always a directory. -/
def find (entries : Entries) (place : Location) : Option Entry :=
  if place = [] then some .directory else entries.get? place

end Entries

structure FileTree where
  entries : Entries
  closed : ∀ name place, entries.find (name :: place) ≠ none →
    entries.find place = some .directory

namespace FileTree

def find (tree : FileTree) (place : Location) : Option Entry :=
  tree.entries.find place

/-- Only the root. -/
def bare : FileTree where
  entries := []
  closed := by simp [Entries.find, Entries.get?]

theorem find_root (tree : FileTree) : tree.find [] = some .directory := rfl

theorem find_parent {tree : FileTree} {name : String} {place : Location}
    (h : tree.find (name :: place) ≠ none) : tree.find place = some .directory :=
  tree.closed name place h

theorem ne_cons_self (name : String) (place : Location) : place ≠ name :: place := by
  intro h
  have := congrArg List.length h
  simp at this

theorem find_put (tree : FileTree) (place : Location) (name : String) (entry : Entry)
    (other : Location) :
    Entries.find ((name :: place, entry) :: tree.entries.without (name :: place)) other =
      if other = name :: place then some entry else tree.find other := by
  grind [Entries.find, find, Entries.get?, Entries.get?_without]

/-- Puts an entry into a directory, in the place of a file of that name if there is one. -/
def insert (tree : FileTree) (place : Location) (name : String) (entry : Entry)
    (parent : tree.find place = some .directory)
    (fits : tree.find (name :: place) ≠ some .directory) : FileTree where
  entries := (name :: place, entry) :: tree.entries.without (name :: place)
  closed := by
    intro inner outer h
    rw [find_put] at h ⊢
    by_cases hinner : inner :: outer = name :: place
    · obtain ⟨rfl, rfl⟩ := List.cons.inj hinner
      rw [if_neg (ne_cons_self _ _)]
      exact parent
    · rw [if_neg hinner] at h
      have hdirectory := find_parent h
      rw [if_neg]
      · exact hdirectory
      · rintro rfl
        exact fits hdirectory

theorem find_insert (tree : FileTree) (place : Location) (name : String) (entry : Entry)
    (parent : tree.find place = some .directory)
    (fits : tree.find (name :: place) ≠ some .directory) (other : Location) :
    (tree.insert place name entry parent fits).find other =
      if other = name :: place then some entry else tree.find other :=
  find_put tree place name entry other

def isChildless (tree : FileTree) (place : Location) : Bool :=
  tree.entries.childless place

theorem find_eq_none_of_isChildless {tree : FileTree} {place : Location}
    (h : tree.isChildless place = true) (name : String) : tree.find (name :: place) = none := by
  simpa [find, Entries.find] using Entries.get?_eq_none_of_childless h name

/-- The root stays whatever is taken out. -/
theorem find_drop (tree : FileTree) (place other : Location) :
    (tree.entries.without place).find other =
      if other = place ∧ place ≠ [] then none else tree.find other := by
  grind [Entries.find, find, Entries.get?_without]

/-- Takes an entry out of the tree. -/
def remove (tree : FileTree) (place : Location) (alone : tree.isChildless place = true) :
    FileTree where
  entries := tree.entries.without place
  closed := by
    intro inner outer h
    rw [find_drop] at h ⊢
    have hfound : tree.find (inner :: outer) ≠ none := fun hnone ↦ h (by simp [hnone])
    rw [if_neg]
    · exact find_parent hfound
    · rintro ⟨rfl, -⟩
      exact hfound (find_eq_none_of_isChildless alone inner)

theorem find_remove (tree : FileTree) (place : Location) (alone : tree.isChildless place = true)
    (other : Location) :
    (tree.remove place alone).find other =
      if other = place ∧ place ≠ [] then none else tree.find other :=
  find_drop tree place other

/-- Nothing is inside a file. -/
theorem isChildless_of_find_file {tree : FileTree} {place : Location} {contents : ByteArray}
    (h : tree.find place = some (.file contents)) : tree.isChildless place = true := by
  rw [isChildless, Entries.childless, List.all_eq_true]
  rintro ⟨key, entry⟩ hitem
  cases key with
  | nil => rfl
  | cons name outer =>
    simp only [ne_eq, decide_eq_true_eq]
    rintro rfl
    have hfound : tree.find (name :: outer) ≠ none := by
      simpa [find, Entries.find] using Entries.get?_ne_none_of_mem hitem
    rw [find_parent hfound] at h
    simp at h

end FileTree

end DeclaredSource.Storage
