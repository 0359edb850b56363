import Mathlib.Data.List.Forall2

/-!
# Runs that stop at the first failure

What a sequence of steps in `Except` comes to, said of its steps: a sequence succeeds when every
step does, and what it fails with is the failure of a step that was reached. The same is said of
going through a list. Two runs are compared by how they end.
-/

namespace DeclaredSource.FirstFailure

variable {ε α β : Type}

theorem ok_bind (a : α) (f : α → Except ε β) : (.ok a : Except ε α) >>= f = f a := rfl

theorem bind_eq_ok {x : Except ε α} {f : α → Except ε β} {b : β} :
    x >>= f = .ok b ↔ ∃ a, x = .ok a ∧ f a = .ok b := by
  cases x <;> simp [bind, Except.bind]

theorem bind_eq_error {x : Except ε α} {f : α → Except ε β} {e : ε} :
    x >>= f = .error e ↔ x = .error e ∨ ∃ a, x = .ok a ∧ f a = .error e := by
  cases x <;> simp [bind, Except.bind]

theorem map_eq_ok {x : Except ε α} {f : α → β} {b : β} :
    f <$> x = .ok b ↔ ∃ a, x = .ok a ∧ f a = b := by
  cases x <;> simp [Functor.map, Except.map]

theorem map_eq_error {x : Except ε α} {f : α → β} {e : ε} : f <$> x = .error e ↔ x = .error e := by
  cases x <;> simp [Functor.map, Except.map]

theorem pure_eq_ok {a b : α} : (pure a : Except ε α) = .ok b ↔ a = b := by
  simp [pure, Except.pure]

theorem mapM_eq_ok {f : α → Except ε β} {xs : List α} {ys : List β} :
    xs.mapM f = .ok ys ↔ List.Forall₂ (fun x y ↦ f x = .ok y) xs ys := by
  induction xs generalizing ys with
  | nil => cases ys <;> simp [pure, Except.pure]
  | cons x xs ih =>
    rw [List.mapM_cons, bind_eq_ok]
    simp only [bind_eq_ok, ih, pure_eq_ok]
    constructor
    · rintro ⟨y, hy, ys, hys, rfl⟩
      exact .cons hy hys
    · intro h
      cases h with
      | cons hy hys => exact ⟨_, hy, _, hys, rfl⟩

theorem exists_mem_of_mapM {f : α → Except ε β} {xs : List α} {ys : List β}
    (h : xs.mapM f = .ok ys) {y : β} (hy : y ∈ ys) : ∃ x ∈ xs, f x = .ok y := by
  obtain ⟨index, hindex, rfl⟩ := List.mem_iff_getElem.1 hy
  obtain ⟨hlength, hget⟩ := List.forall₂_iff_get.1 (mapM_eq_ok.1 h)
  have hindex' : index < xs.length := hlength ▸ hindex
  exact ⟨xs[index], List.getElem_mem hindex', hget index hindex' hindex⟩

/-- A run that tells each item its place. -/
theorem forall₂_of_mapM_zipIdx {f : α × Nat → Except ε β} {xs : List α} {ys : List β}
    (h : xs.zipIdx.mapM f = .ok ys) :
    List.Forall₂ (fun x y ↦ ∃ index, f (x, index) = .ok y) xs ys := by
  have hitems : List.Forall₂ (fun x y ↦ ∃ index, f (x, index) = .ok y)
      (xs.zipIdx.map Prod.fst) ys :=
    List.forall₂_map_left_iff.2 ((mapM_eq_ok.1 h).imp fun x y hxy ↦ ⟨x.2, hxy⟩)
  rwa [List.zipIdx_map_fst] at hitems

theorem mapM_zipIdx_eq_ok {f : α × Nat → Except ε β} {xs : List α} {ys : List β}
    (h : List.Forall₂ (fun x y ↦ ∀ index, f (x, index) = .ok y) xs ys) :
    xs.zipIdx.mapM f = .ok ys := by
  rw [← List.zipIdx_map_fst 0 xs, List.forall₂_map_left_iff] at h
  exact mapM_eq_ok.2 (h.imp fun x y hxy ↦ hxy x.2)

theorem exists_mem_of_mapM_zipIdx {f : α × Nat → Except ε β} {xs : List α} {ys : List β}
    (h : xs.zipIdx.mapM f = .ok ys) {y : β} (hy : y ∈ ys) :
    ∃ x ∈ xs, ∃ index, f (x, index) = .ok y := by
  obtain ⟨⟨x, index⟩, hx, heq⟩ := exists_mem_of_mapM h hy
  exact ⟨x, List.fst_mem_of_mem_zipIdx hx, index, heq⟩

/-- Two runs over one list, the second of which succeeds where the first does and a condition
holds. -/
theorem mapM_eq_ok_iff_of_mapM {f g : α → Except ε β} {P : α → Prop} {xs : List α} {ys : List β}
    (hxs : xs.mapM f = .ok ys)
    (h : ∀ x ∈ xs, ∀ y, f x = .ok y → (g x = .ok y ↔ P x)) :
    xs.mapM g = .ok ys ↔ ∀ x ∈ xs, P x := by
  rw [mapM_eq_ok] at hxs ⊢
  induction hxs with
  | nil => simp
  | @cons x y xs ys hxy _ ih =>
    have hrest := ih fun x' hx' ↦ h x' (List.mem_cons_of_mem _ hx')
    rw [List.forall₂_cons, h x List.mem_cons_self y hxy, hrest, List.forall_mem_cons]

section MapError

variable {ε' ε'' : Type}

theorem mapError_bind (g : ε → ε') (x : Except ε α) (f : α → Except ε β) :
    (x >>= f).mapError g = x.mapError g >>= fun a ↦ (f a).mapError g := by
  cases x <;> rfl

theorem mapError_map (g : ε → ε') (f : α → β) (x : Except ε α) :
    (f <$> x).mapError g = f <$> x.mapError g := by
  cases x <;> rfl

theorem mapError_mapError (g' : ε' → ε'') (g : ε → ε') (x : Except ε α) :
    (x.mapError g).mapError g' = x.mapError (g' ∘ g) := by
  cases x <;> rfl

theorem mapError_eq_ok {g : ε → ε'} {x : Except ε α} {a : α} :
    x.mapError g = .ok a ↔ x = .ok a := by
  cases x <;> simp [Except.mapError]

theorem mapError_eq_error {g : ε → ε'} {x : Except ε α} {e' : ε'} :
    x.mapError g = .error e' ↔ ∃ e, x = .error e ∧ g e = e' := by
  cases x <;> simp [Except.mapError]

theorem mapM_mapError (g : ε → ε') (f : α → Except ε β) (xs : List α) :
    (xs.mapM fun x ↦ (f x).mapError g) = (xs.mapM f).mapError g := by
  induction xs with
  | nil => rfl
  | cons x xs ih =>
    rw [List.mapM_cons, List.mapM_cons, ih]
    simp only [mapError_bind]
    rfl

end MapError

theorem mapM_map {γ : Type} (g : β → γ) (f : α → Except ε β) (xs : List α) :
    (xs.mapM fun x ↦ g <$> f x) = List.map g <$> xs.mapM f := by
  induction xs with
  | nil => rfl
  | cons x xs ih =>
    rw [List.mapM_cons, List.mapM_cons, ih]
    simp [map_bind, bind_map_left]

/-- A second run over what a first one has made of a list, as a run over the list itself. -/
theorem mapM_bind_mapM {γ : Type} (f : α → Except ε β) (g : β → Except ε γ) (xs : List α) :
    (xs.mapM f >>= fun ys ↦ ys.mapM g) = xs.mapM f >>= fun _ ↦ xs.mapM fun x ↦ f x >>= g := by
  cases h : xs.mapM f with
  | error e => rfl
  | ok ys =>
    rw [ok_bind, ok_bind]
    have heach := mapM_eq_ok.1 h
    clear h
    induction heach with
    | nil => rfl
    | cons hitem _ ih => rw [List.mapM_cons, List.mapM_cons, hitem, ok_bind, ih]

theorem mapM_eq_error {f : α → Except ε β} {xs : List α} {e : ε} :
    xs.mapM f = .error e ↔ ∃ before x after, xs = before ++ x :: after ∧
      (∀ y ∈ before, ∃ b, f y = .ok b) ∧ f x = .error e := by
  induction xs with
  | nil => simp [pure, Except.pure]
  | cons x xs ih =>
    rw [List.mapM_cons, bind_eq_error]
    constructor
    · rintro (hx | ⟨b, hb, hrest⟩)
      · exact ⟨[], x, xs, rfl, by simp, hx⟩
      · rcases bind_eq_error.1 hrest with hxs | ⟨bs, -, hpure⟩
        · obtain ⟨before, y, after, rfl, hbefore, hy⟩ := ih.1 hxs
          exact ⟨x :: before, y, after, rfl, List.forall_mem_cons.2 ⟨⟨b, hb⟩, hbefore⟩, hy⟩
        · cases hpure
    · rintro ⟨before, y, after, hxs, hbefore, hy⟩
      cases before with
      | nil =>
        obtain ⟨rfl, -⟩ := List.cons.inj hxs
        exact .inl hy
      | cons z before =>
        obtain ⟨rfl, rfl⟩ := List.cons.inj hxs
        obtain ⟨⟨b, hb⟩, hbefore⟩ := List.forall_mem_cons.1 hbefore
        exact .inr ⟨b, hb, bind_eq_error.2 (.inl (ih.2 ⟨before, y, after, rfl, hbefore, hy⟩))⟩

theorem exists_mapM {f : α → Except ε β} {xs : List α} (h : ∀ x ∈ xs, ∃ y, f x = .ok y) :
    ∃ ys, xs.mapM f = .ok ys := by
  cases hrun : xs.mapM f with
  | ok ys => exact ⟨ys, rfl⟩
  | error e =>
    obtain ⟨before, x, after, rfl, -, hx⟩ := mapM_eq_error.1 hrun
    obtain ⟨y, hy⟩ := h x (by simp)
    cases hx.symm.trans hy

theorem forall_mem_of_mapM {f : α → Except ε β} {xs : List α} {ys : List β}
    (h : xs.mapM f = .ok ys) : ∀ x ∈ xs, ∃ y, f x = .ok y := by
  have heach := mapM_eq_ok.1 h
  clear h
  induction heach with
  | nil => exact fun _ hx ↦ absurd hx List.not_mem_nil
  | cons hitem _ ih => exact List.forall_mem_cons.2 ⟨⟨_, hitem⟩, ih⟩

theorem forall_mem_zipIdx {P : α → Prop} {xs : List α} :
    (∀ item ∈ xs.zipIdx, P item.1) ↔ ∀ x ∈ xs, P x := by
  have hmap := List.forall_mem_map (f := Prod.fst) (l := xs.zipIdx) (P := P)
  rw [List.zipIdx_map_fst] at hmap
  exact hmap.symm

/-- A run that tells each item its place. -/
theorem mapM_zipIdx_eq_error {f : α × Nat → Except ε β} {xs : List α} {e : ε} :
    xs.zipIdx.mapM f = .error e ↔ ∃ before x after, xs = before ++ x :: after ∧
      (∀ item ∈ before.zipIdx, ∃ b, f item = .ok b) ∧ f (x, before.length) = .error e := by
  rw [mapM_eq_error]
  constructor
  · rintro ⟨before, ⟨x, index⟩, after, hxs, hbefore, hx⟩
    have hsplit : xs = before.map Prod.fst ++ x :: after.map Prod.fst := by
      rw [← List.zipIdx_map_fst 0 xs, hxs, List.map_append, List.map_cons]
    have hitems := congrArg List.zipIdx hsplit
    rw [hxs, List.zipIdx_append, List.zipIdx_cons] at hitems
    obtain ⟨hfront, hrest⟩ := List.append_inj hitems (by simp)
    obtain ⟨hitem, -⟩ := List.cons.inj hrest
    rw [Nat.zero_add] at hitem
    exact ⟨_, x, _, hsplit, hfront ▸ hbefore, hitem ▸ hx⟩
  · rintro ⟨before, x, after, rfl, hbefore, hx⟩
    refine ⟨before.zipIdx, (x, before.length), after.zipIdx (before.length + 1), ?_, hbefore, hx⟩
    rw [List.zipIdx_append, List.zipIdx_cons, Nat.zero_add]

/-- Every failure that the run can end with is one of the given kind. -/
def FailsOnly (P : ε → Prop) (x : Except ε α) : Prop :=
  ∀ e, x = .error e → P e

namespace FailsOnly

variable {P : ε → Prop}

theorem ok (a : α) : FailsOnly P (.ok a : Except ε α) := by
  intro e h
  cases h

theorem error {e : ε} (h : P e) : FailsOnly P (.error e : Except ε α) := by
  intro _ heq
  cases heq
  exact h

theorem bind {x : Except ε α} {f : α → Except ε β} (hx : FailsOnly P x)
    (hf : ∀ a, x = .ok a → FailsOnly P (f a)) : FailsOnly P (x >>= f) := by
  intro e h
  rcases bind_eq_error.1 h with h | ⟨a, ha, h⟩
  · exact hx e h
  · exact hf a ha e h

theorem map {x : Except ε α} (f : α → β) (hx : FailsOnly P x) : FailsOnly P (f <$> x) := by
  intro e h
  cases x with
  | error e' =>
    cases h
    exact hx e rfl
  | ok a => cases h

theorem mapM {f : α → Except ε β} {xs : List α} (h : ∀ x ∈ xs, FailsOnly P (f x)) :
    FailsOnly P (xs.mapM f) := by
  induction xs with
  | nil => exact ok []
  | cons x xs ih =>
    rw [List.mapM_cons]
    refine bind (h x List.mem_cons_self) fun y _ ↦ ?_
    exact bind (ih fun x' hx' ↦ h x' (List.mem_cons_of_mem _ hx')) fun ys _ ↦ ok (y :: ys)

end FailsOnly

/-- Both runs fail with one error, or both succeed with related results. -/
inductive Alike (R : α → β → Prop) : Except ε α → Except ε β → Prop
  | error (e : ε) : Alike R (.error e) (.error e)
  | ok {a : α} {b : β} (related : R a b) : Alike R (.ok a) (.ok b)

namespace Alike

variable {γ δ : Type} {R : α → β → Prop} {S : γ → δ → Prop} {x : Except ε α} {y : Except ε β}

theorem bind {f : α → Except ε γ} {g : β → Except ε δ} (h : Alike R x y)
    (hfg : ∀ a b, R a b → Alike S (f a) (g b)) : Alike S (x >>= f) (y >>= g) := by
  cases h with
  | error e => exact error e
  | ok related => exact hfg _ _ related

theorem bind_same {f : α → Except ε γ} {g : α → Except ε δ} (hfg : ∀ a, Alike S (f a) (g a)) :
    Alike S (x >>= f) (x >>= g) := by
  cases x with
  | error e => exact error e
  | ok a => exact hfg a

theorem mono {R' : α → β → Prop} (h : Alike R x y) (hR : ∀ a b, R a b → R' a b) :
    Alike R' x y := by
  cases h with
  | error e => exact error e
  | ok related => exact ok (hR _ _ related)

theorem eq {x y : Except ε α} (h : Alike (· = ·) x y) : x = y := by
  cases h with
  | error e => rfl
  | ok related => rw [related]

end Alike

/-- Both runs fail with related errors, or both succeed with related results. -/
inductive Parallel {ε' : Type} (E : ε → ε' → Prop) (R : α → β → Prop) :
    Except ε α → Except ε' β → Prop
  | error {e : ε} {e' : ε'} (related : E e e') : Parallel E R (.error e) (.error e')
  | ok {a : α} {b : β} (related : R a b) : Parallel E R (.ok a) (.ok b)

namespace Parallel

variable {ε' γ δ : Type} {E : ε → ε' → Prop} {R : α → β → Prop} {S : γ → δ → Prop}
  {x : Except ε α} {y : Except ε' β}

theorem bind {f : α → Except ε γ} {g : β → Except ε' δ} (h : Parallel E R x y)
    (hfg : ∀ a b, R a b → Parallel E S (f a) (g b)) : Parallel E S (x >>= f) (y >>= g) := by
  cases h with
  | error related => exact error related
  | ok related => exact hfg _ _ related

theorem map {f : α → γ} {g : β → δ} (h : Parallel E R x y)
    (hfg : ∀ a b, R a b → S (f a) (g b)) : Parallel E S (f <$> x) (g <$> y) := by
  cases h with
  | error related => exact error related
  | ok related => exact ok (hfg _ _ related)

/-- Going through two lists whose items are related one by one. -/
theorem mapM {f : γ → Except ε α} {g : δ → Except ε' β} {xs : List γ} {ys : List δ}
    (h : List.Forall₂ S xs ys) (hfg : ∀ c d, S c d → Parallel E R (f c) (g d)) :
    Parallel E (List.Forall₂ R) (xs.mapM f) (ys.mapM g) := by
  induction h with
  | nil => exact ok .nil
  | cons hitem _ ih =>
    rw [List.mapM_cons, List.mapM_cons]
    refine (hfg _ _ hitem).bind fun a b hab ↦ ih.bind fun as bs hrest ↦ ?_
    exact ok (.cons hab hrest)

theorem refl {E : ε → ε → Prop} {R : α → α → Prop} (herror : ∀ e, E e e) (hok : ∀ a, R a a)
    (x : Except ε α) : Parallel E R x x := by
  cases x with
  | error e => exact error (herror e)
  | ok a => exact ok (hok a)

/-- Runs that succeed with equal results only. -/
theorem ok_iff {y : Except ε' α} (h : Parallel E (· = ·) x y) (a : α) :
    x = .ok a ↔ y = .ok a := by
  cases h with
  | error related => simp
  | ok related => simp [related]

theorem error_of_error {e : ε} (h : Parallel E R x y) (hx : x = .error e) :
    ∃ e', y = .error e' ∧ E e e' := by
  cases h with
  | error related =>
    cases hx
    exact ⟨_, rfl, related⟩
  | ok related => cases hx

end Parallel

end DeclaredSource.FirstFailure
