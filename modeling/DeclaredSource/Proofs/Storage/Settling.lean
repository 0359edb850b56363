import DeclaredSource.Proofs.Storage.Removal
import DeclaredSource.Proofs.Storage.Writing
import Mathlib.Data.Set.Basic

/-!
# Settling a file

An operation that succeeds on a file settles it: either the file has its new contents and there are
directories all the way to it, or the file is gone and so is every directory on the way to it that
leads to nothing any more. This depends on the file and on the way to it only. For two files of
which neither is on the way to the other it comes to the same in both orders, also where they share
directories that one of them needs and the other one clears.
-/

namespace DeclaredSource.Storage

open FileTree

/-- What stands under any names. -/
abbrev View := List String → Option Entry

namespace View

variable {view : View} {base file other names : List String} {files others : Set (List String)}
  {before after before' after' : Option ByteArray} {contents : ByteArray}

/-- The file is put, and there are directories all the way to it. -/
def put (view : View) (file : List String) (contents : ByteArray) : View := fun names ↦
  if names = file then some (.file contents)
  else if names <+: file then some .directory
  else view names

/-- Below the base the names lead to one of the files, and nothing further inwards leads to anything
else. -/
def Vacated (view : View) (base : List String) (files : Set (List String)) (names : List String) :
    Prop :=
  (∃ file ∈ files, Passes base file names) ∧
    ∀ inner, names <+: inner → view inner ≠ none → ∃ file ∈ files, inner <+: file

open Classical in
/-- The files are gone, with the directories below the base that lead to nothing else. -/
noncomputable def sweep (view : View) (base : List String) (files : Set (List String)) : View :=
  fun names ↦ if view.Vacated base files names then none else view names

theorem put_self (file : List String) (contents : ByteArray) :
    view.put file contents file = some (.file contents) := by
  rw [put, if_pos rfl]

theorem put_apply_of_not_leads (h : ¬ names <+: file) (contents : ByteArray) :
    view.put file contents names = view names := by
  have hother : names ≠ file := by
    rintro rfl
    exact h (List.prefix_refl names)
  rw [put, if_neg hother, if_neg h]

theorem put_apply_ne_none (h : names <+: file) (contents : ByteArray) :
    view.put file contents names ≠ none := by
  rw [put, if_pos h]
  split <;> simp

theorem sweep_apply_of_vacated (h : view.Vacated base files names) :
    view.sweep base files names = none := by
  rw [sweep, if_pos h]

theorem sweep_apply_of_not_vacated (h : ¬ view.Vacated base files names) :
    view.sweep base files names = view names := by
  rw [sweep, if_neg h]

theorem sweep_apply_eq_none :
    view.sweep base files names = none ↔ view.Vacated base files names ∨ view names = none := by
  by_cases h : view.Vacated base files names
  · simp [sweep_apply_of_vacated h, h]
  · simp [sweep_apply_of_not_vacated h, h]

theorem Vacated.leads (h : view.Vacated base files names) : ∃ file ∈ files, names <+: file := by
  obtain ⟨⟨file, hfile, hpasses⟩, -⟩ := h
  exact ⟨file, hfile, hpasses.2.2⟩

theorem put_comm (h : ¬ file <+: other) (h' : ¬ other <+: file) (contents contents' : ByteArray) :
    (view.put file contents).put other contents' =
      (view.put other contents').put file contents := by
  funext names
  by_cases hother : names = other
  · rw [hother, put_apply_of_not_leads h', put_self, put_self]
  by_cases hfile : names = file
  · rw [hfile, put_apply_of_not_leads h, put_self, put_self]
  · simp only [put, if_neg hother, if_neg hfile]
    split
    · rw [ite_self]
    · rfl

/-- Where the put file is, nothing is vacated on the way to it. -/
theorem vacated_put (h : ∀ swept ∈ files, ¬ file <+: swept) :
    (view.put file contents).Vacated base files names ↔
      ¬ names <+: file ∧ view.Vacated base files names := by
  constructor
  · rintro ⟨hpasses, hinside⟩
    have hleads : ¬ names <+: file := by
      intro hleads
      obtain ⟨swept, hswept, hpre⟩ :=
        hinside file hleads (put_apply_ne_none (List.prefix_refl file) contents)
      exact h swept hswept hpre
    refine ⟨hleads, hpasses, fun inner hinner hfound ↦ hinside inner hinner ?_⟩
    rwa [put_apply_of_not_leads fun hpre ↦ hleads (hinner.trans hpre)]
  · rintro ⟨hleads, hpasses, hinside⟩
    refine ⟨hpasses, fun inner hinner hfound ↦ hinside inner hinner ?_⟩
    rwa [put_apply_of_not_leads fun hpre ↦ hleads (hinner.trans hpre)] at hfound

theorem put_sweep (h : ∀ swept ∈ files, ¬ file <+: swept) :
    (view.put file contents).sweep base files = (view.sweep base files).put file contents := by
  funext names
  by_cases hleads : names <+: file
  · have hstays : ¬ (view.put file contents).Vacated base files names :=
      fun hvacated ↦ (vacated_put h).1 hvacated |>.1 hleads
    rw [sweep_apply_of_not_vacated hstays, put, put, if_pos hleads, if_pos hleads]
  · rw [put_apply_of_not_leads hleads]
    by_cases hvacated : view.Vacated base files names
    · rw [sweep_apply_of_vacated hvacated,
        sweep_apply_of_vacated ((vacated_put h).2 ⟨hleads, hvacated⟩)]
    · have hstays : ¬ (view.put file contents).Vacated base files names :=
        fun hvacated' ↦ hvacated ((vacated_put h).1 hvacated').2
      rw [sweep_apply_of_not_vacated hvacated, sweep_apply_of_not_vacated hstays,
        put_apply_of_not_leads hleads]

/-- What is left of a directory by one sweep is vacated by the other one exactly when it leads to
nothing but files of both. -/
theorem vacated_union :
    view.Vacated base (files ∪ others) names ↔
      view.Vacated base files names ∨ (view.sweep base files).Vacated base others names := by
  constructor
  · rintro ⟨⟨file, hfile, hpasses⟩, hinside⟩
    by_cases hothers : ∃ other ∈ others, Passes base other names
    · refine .inr ⟨hothers, fun inner hinner hleft ↦ ?_⟩
      rw [ne_eq, sweep_apply_eq_none, not_or] at hleft
      by_contra hnone
      -- All that is found here leads to the first files, so the first sweep has taken it.
      refine hleft.1 ⟨?_, fun further hfurther hpresent ↦ ?_⟩
      · obtain ⟨found, hmem, hpre⟩ := hinside inner hinner hleft.2
        have hfiles : found ∈ files := hmem.resolve_right fun hmem ↦ hnone ⟨found, hmem, hpre⟩
        refine ⟨found, hfiles, hpasses.1.trans hinner, ?_, hpre⟩
        rintro rfl
        exact hpasses.2.1 (hinner.eq_of_length_le hpasses.1.length_le)
      · obtain ⟨found, hmem, hpre⟩ := hinside further (hinner.trans hfurther) hpresent
        exact ⟨found, hmem.resolve_right fun hmem ↦ hnone ⟨found, hmem, hfurther.trans hpre⟩, hpre⟩
    · have hnone {other : List String} (hother : other ∈ others) : ¬ names <+: other :=
        fun hpre ↦ hothers ⟨other, hother, hpasses.1, hpasses.2.1, hpre⟩
      refine .inl ⟨⟨file, hfile.resolve_right fun hmem ↦ hnone hmem hpasses.2.2, hpasses⟩, ?_⟩
      intro inner hinner hpresent
      obtain ⟨found, hmem, hpre⟩ := hinside inner hinner hpresent
      exact ⟨found, hmem.resolve_right fun hmem ↦ hnone hmem (hinner.trans hpre), hpre⟩
  · rintro (⟨⟨file, hfile, hpasses⟩, hinside⟩ | ⟨⟨other, hother, hpasses⟩, hinside⟩)
    · refine ⟨⟨file, .inl hfile, hpasses⟩, fun inner hinner hpresent ↦ ?_⟩
      obtain ⟨found, hmem, hpre⟩ := hinside inner hinner hpresent
      exact ⟨found, .inl hmem, hpre⟩
    · refine ⟨⟨other, .inr hother, hpasses⟩, fun inner hinner hpresent ↦ ?_⟩
      by_cases hvacated : view.Vacated base files inner
      · obtain ⟨found, hmem, hpre⟩ := hvacated.leads
        exact ⟨found, .inl hmem, hpre⟩
      · obtain ⟨found, hmem, hpre⟩ := hinside inner hinner
          (by rwa [sweep_apply_of_not_vacated hvacated])
        exact ⟨found, .inr hmem, hpre⟩

theorem sweep_sweep :
    (view.sweep base files).sweep base others = view.sweep base (files ∪ others) := by
  funext names
  by_cases hunion : view.Vacated base (files ∪ others) names
  · rw [sweep_apply_of_vacated hunion, sweep_apply_eq_none, sweep_apply_eq_none]
    rcases vacated_union.1 hunion with hfiles | hothers
    · exact .inr (.inl hfiles)
    · exact .inl hothers
  · have hneither := mt vacated_union.2 hunion
    rw [not_or] at hneither
    rw [sweep_apply_of_not_vacated hunion, sweep_apply_of_not_vacated hneither.2,
      sweep_apply_of_not_vacated hneither.1]

/-- The file has the contents, or it is gone. -/
noncomputable def settle (view : View) (base file : List String) : Option ByteArray → View
  | some contents => view.put file contents
  | none => view.sweep base {file}

theorem settle_comm (h : ¬ file <+: other) (h' : ¬ other <+: file) :
    (view.settle base file after).settle base other after' =
      (view.settle base other after').settle base file after := by
  have hswept : ∀ swept ∈ ({other} : Set (List String)), ¬ file <+: swept := by
    rintro swept rfl
    exact h
  have hswept' : ∀ swept ∈ ({file} : Set (List String)), ¬ other <+: swept := by
    rintro swept rfl
    exact h'
  match after, after' with
  | some contents, some contents' => exact put_comm h h' contents contents'
  | some contents, none => exact put_sweep hswept
  | none, some contents' => exact (put_sweep hswept').symm
  | none, none =>
    calc
      (view.sweep base {file}).sweep base {other} = view.sweep base ({file} ∪ {other}) :=
        sweep_sweep
      _ = view.sweep base ({other} ∪ {file}) := by rw [Set.union_comm]
      _ = (view.sweep base {other}).sweep base {file} := sweep_sweep.symm

/-- The file has the contents or is missing, and no file is in the way to it. -/
structure Holds (view : View) (file : List String) (before : Option ByteArray) : Prop where
  found : view file = before.map .file
  way : ∀ outer, outer <+: file → outer ≠ file → ∀ contents, view outer ≠ some (.file contents)

theorem settle_apply_of_not_leads (h : ¬ names <+: file) :
    view.settle base file after names = view names := by
  cases after with
  | some contents => exact put_apply_of_not_leads h contents
  | none =>
    apply sweep_apply_of_not_vacated
    intro hvacated
    obtain ⟨swept, rfl, hleads⟩ := hvacated.leads
    exact h hleads

/-- Settling a file makes and removes directories only, on the way to it. -/
theorem Holds.settle_way (h : view.Holds file before) (hleads : names <+: file)
    (hother : names ≠ file) (contents : ByteArray) :
    view.settle base file after names ≠ some (.file contents) := by
  cases after with
  | some bytes =>
    rw [settle, put, if_neg hother, if_pos hleads]
    simp
  | none =>
    rw [settle, sweep]
    split
    · simp
    · exact h.way names hleads hother contents

/-- Settling a file makes no difference to another one. -/
theorem Holds.holds_settle (h : view.Holds file before) (hfile : ¬ file <+: other)
    (hother : ¬ other <+: file) :
    (view.settle base file after).Holds other before' ↔ view.Holds other before' := by
  have hfound : view.settle base file after other = view other := settle_apply_of_not_leads hother
  have hway (outer : List String) (hpre : outer <+: other) (contents : ByteArray) :
      view.settle base file after outer = some (.file contents) ↔
        view outer = some (.file contents) := by
    by_cases hleads : outer <+: file
    · have hne : outer ≠ file := by
        rintro rfl
        exact hfile hpre
      exact iff_of_false (h.settle_way hleads hne contents) (h.way outer hleads hne contents)
    · rw [settle_apply_of_not_leads hleads]
  constructor
  · intro hholds
    refine ⟨hfound ▸ hholds.found, fun outer hpre hne contents hfile ↦ ?_⟩
    exact hholds.way outer hpre hne contents ((hway outer hpre contents).2 hfile)
  · intro hholds
    refine ⟨hfound.trans hholds.found, fun outer hpre hne contents hfile ↦ ?_⟩
    exact hholds.way outer hpre hne contents ((hway outer hpre contents).1 hfile)

end View

end DeclaredSource.Storage
