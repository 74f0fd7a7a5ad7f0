import Mathlib.Data.List.Forall2

/-!
# Computations that may fail

What a computation in `Except` has gone through when it gives a result.
-/

namespace Typings

theorem exists_of_bind_eq_ok {ε α β : Type} {x : Except ε α} {k : α → Except ε β} {b : β}
    (h : x >>= k = .ok b) : ∃ a, x = .ok a ∧ k a = .ok b := by
  cases x with
  | error e => cases h
  | ok a => exact ⟨a, rfl, h⟩

theorem or_of_bind_eq_error {ε α β : Type} {x : Except ε α} {k : α → Except ε β} {e : ε}
    (h : x >>= k = .error e) : x = .error e ∨ ∃ a, x = .ok a ∧ k a = .error e := by
  cases x with
  | error e' => exact .inl (congrArg Except.error (Except.error.inj h))
  | ok a => exact .inr ⟨a, rfl, h⟩

theorem exists_bind_eq_ok_iff {ε α β : Type} {x : Except ε α} {k : α → Except ε β} :
    (∃ b, x >>= k = .ok b) ↔ ∃ a, x = .ok a ∧ ∃ b, k a = .ok b := by
  constructor
  · rintro ⟨b, hb⟩
    obtain ⟨a, ha, hk⟩ := exists_of_bind_eq_ok hb
    exact ⟨a, ha, b, hk⟩
  · rintro ⟨a, ha, b, hb⟩
    exact ⟨b, by rw [ha]; exact hb⟩

theorem exists_eq_error_iff {ε α : Type} {x : Except ε α} :
    (∃ e, x = .error e) ↔ ¬ ∃ a, x = .ok a := by
  cases x with
  | error e => simp
  | ok a => simp

theorem map_eq_ok_iff {ε α β : Type} {x : Except ε α} {f : α → β} {b : β} :
    x.map f = .ok b ↔ ∃ a, x = .ok a ∧ f a = b := by
  cases x with
  | error e => simp [Except.map]
  | ok a => simp [Except.map]

theorem exists_pure_eq_ok {ε α : Type} (a : α) : ∃ b, (pure a : Except ε α) = .ok b := ⟨a, rfl⟩

/-- A computation that fails leaves the state that it has come to. -/
theorem run_bind {ε σ α β : Type} (x : EStateM ε σ α) (k : α → EStateM ε σ β) (s : σ) :
    (x >>= k).run s = match x.run s with
      | .ok a s' => (k a).run s'
      | .error e s' => .error e s' := by
  change EStateM.bind x k s = _
  rw [EStateM.bind]
  rfl

theorem run_get_bind {ε σ α : Type} (k : σ → EStateM ε σ α) (s : σ) :
    (get >>= k : EStateM ε σ α).run s = (k s).run s := rfl

/-! ## Failures -/

/-- All that a computation can fail with has a property. -/
def FailsWith {ε α : Type} (P : ε → Prop) (x : Except ε α) : Prop := ∀ e, x = .error e → P e

section FailsWith

variable {ε α β : Type} {P : ε → Prop}

theorem failsWith_ok (a : α) : FailsWith P (.ok a) := by
  intro e h
  cases h

theorem failsWith_error {e : ε} (h : P e) : FailsWith P (.error e : Except ε α) := by
  rintro e ⟨⟩
  exact h

theorem FailsWith.bind {x : Except ε α} {k : α → Except ε β} (hx : FailsWith P x)
    (hk : ∀ a, x = .ok a → FailsWith P (k a)) : FailsWith P (x >>= k) := by
  intro e h
  rcases or_of_bind_eq_error h with h | ⟨a, ha, h⟩
  · exact hx e h
  · exact hk a ha e h

/-- What is made of a result does not fail. -/
theorem FailsWith.map {x : Except ε α} (hx : FailsWith P x) (f : α → β) :
    FailsWith P (do return f (← x)) :=
  hx.bind fun _ _ ↦ failsWith_ok _

theorem FailsWith.mapM {f : α → Except ε β} {xs : List α} (h : ∀ x ∈ xs, FailsWith P (f x)) :
    FailsWith P (xs.mapM f) := by
  induction xs with
  | nil => exact failsWith_ok []
  | cons x xs ih =>
      obtain ⟨hx, hxs⟩ := List.forall_mem_cons.1 h
      rw [List.mapM_cons]
      apply hx.bind
      intro y _
      exact (ih hxs).map (y :: ·)

end FailsWith

/-! ## Traversals -/

theorem mapM_eq_ok_iff {ε α β : Type} {f : α → Except ε β} {xs : List α} {ys : List β} :
    xs.mapM f = .ok ys ↔ List.Forall₂ (fun x y ↦ f x = .ok y) xs ys := by
  induction xs generalizing ys with
  | nil =>
      rw [List.mapM_nil, List.forall₂_nil_left_iff]
      exact ⟨fun h ↦ (Except.ok.inj h).symm, fun h ↦ h ▸ rfl⟩
  | cons x xs ih =>
      rw [List.mapM_cons, List.forall₂_cons_left_iff]
      cases hx : f x with
      | error e => simp [bind, Except.bind]
      | ok y =>
          cases hxs : xs.mapM f with
          | error e => simp [bind, Except.bind, ← ih, hxs]
          | ok zs => simp [bind, Except.bind, pure, Except.pure, ← ih, hxs, eq_comm]

theorem mapM_append_eq_ok_iff {ε α β : Type} {f : α → Except ε β} {xs ys : List α} {zs : List β} :
    (xs ++ ys).mapM f = .ok zs ↔
      ∃ us vs, xs.mapM f = .ok us ∧ ys.mapM f = .ok vs ∧ us ++ vs = zs := by
  rw [List.mapM_append]
  cases xs.mapM f with
  | error e => simp [bind, Except.bind]
  | ok us => cases ys.mapM f <;> simp [bind, Except.bind, pure, Except.pure]

theorem mapM_eq_ok_map {ε α β : Type} {f : α → Except ε β} {g : α → β} {xs : List α}
    (h : ∀ x ∈ xs, f x = .ok (g x)) : xs.mapM f = .ok (xs.map g) := by
  rw [mapM_eq_ok_iff, List.forall₂_map_right_iff, List.forall₂_same]
  exact h

theorem mapM_congr {ε α β : Type} {f g : α → Except ε β} {xs : List α} (h : ∀ x ∈ xs, f x = g x) :
    xs.mapM f = xs.mapM g := by
  induction xs with
  | nil => rfl
  | cons x xs ih =>
      obtain ⟨hx, hxs⟩ := List.forall_mem_cons.1 h
      rw [List.mapM_cons, List.mapM_cons, hx, ih hxs]

theorem exists_forall₂ {α β : Type} {R : α → β → Prop} {xs : List α}
    (h : ∀ x ∈ xs, ∃ y, R x y) : ∃ ys, List.Forall₂ R xs ys := by
  induction xs with
  | nil => exact ⟨[], .nil⟩
  | cons x xs ih =>
      obtain ⟨y, hy⟩ := h x List.mem_cons_self
      obtain ⟨ys, hys⟩ := ih fun z hz ↦ h z (List.mem_cons_of_mem x hz)
      exact ⟨y :: ys, .cons hy hys⟩

theorem exists_mapM_eq_ok_iff {ε α β : Type} {f : α → Except ε β} {xs : List α} :
    (∃ ys, xs.mapM f = .ok ys) ↔ ∀ x ∈ xs, ∃ y, f x = .ok y := by
  simp only [mapM_eq_ok_iff]
  constructor
  · rintro ⟨ys, hys⟩
    induction hys with
    | nil => exact List.forall_mem_nil _
    | cons hx _ ih => exact List.forall_mem_cons.2 ⟨⟨_, hx⟩, ih⟩
  · exact exists_forall₂

theorem exists_mapM_eq_error_iff {ε α β : Type} {f : α → Except ε β} {xs : List α} :
    (∃ e, xs.mapM f = .error e) ↔ ∃ x ∈ xs, ∃ e, f x = .error e := by
  simp only [exists_eq_error_iff, exists_mapM_eq_ok_iff, not_forall, exists_prop]

theorem exists_mem_zip_left {α β : Type} {xs : List α} {ys : List β} {x : α}
    (h : xs.length = ys.length) (hx : x ∈ xs) : ∃ y, (x, y) ∈ xs.zip ys := by
  rw [← List.map_fst_zip (Nat.le_of_eq h)] at hx
  obtain ⟨⟨x, y⟩, hp, rfl⟩ := List.mem_map.1 hx
  exact ⟨y, hp⟩

theorem exists_mem_zip_right {α β : Type} {xs : List α} {ys : List β} {y : β}
    (h : xs.length = ys.length) (hy : y ∈ ys) : ∃ x, (x, y) ∈ xs.zip ys := by
  rw [← List.map_snd_zip (Nat.le_of_eq h.symm)] at hy
  obtain ⟨⟨x, y⟩, hp, rfl⟩ := List.mem_map.1 hy
  exact ⟨x, hp⟩

/-- What every step keeps is kept by a traversal. -/
theorem map_eq_of_mapM {ε α β γ : Type} {f : α → Except ε β} {view : α → γ} {view' : β → γ}
    {xs : List α} {ys : List β} (h : xs.mapM f = .ok ys)
    (hview : ∀ x y, f x = .ok y → view' y = view x) : ys.map view' = xs.map view := by
  rw [mapM_eq_ok_iff] at h
  induction h with
  | nil => rfl
  | cons hx _ ih => rw [List.map_cons, List.map_cons, hview _ _ hx, ih]

theorem exists_of_mem_mapM {ε α β : Type} {f : α → Except ε β} {xs : List α} {ys : List β}
    (h : xs.mapM f = .ok ys) {y : β} (hy : y ∈ ys) : ∃ x ∈ xs, f x = .ok y := by
  have hall := mapM_eq_ok_iff.1 h
  obtain ⟨x, hx⟩ := exists_mem_zip_right hall.length_eq hy
  exact ⟨x, (List.of_mem_zip hx).1, List.forall₂_zip hall hx⟩

theorem exists_mapM_and {ε α β : Type} {f : α → Except ε β} {P : β → Prop} {xs : List α}
    (h : ∀ x ∈ xs, ∃ y, f x = .ok y ∧ P y) : ∃ ys, xs.mapM f = .ok ys ∧ ∀ y ∈ ys, P y := by
  obtain ⟨ys, hys⟩ := exists_mapM_eq_ok_iff.2 fun x hx ↦ (h x hx).imp fun _ hy ↦ hy.1
  refine ⟨ys, hys, fun y hy ↦ ?_⟩
  obtain ⟨x, hx, hxy⟩ := exists_of_mem_mapM hys hy
  obtain ⟨z, hz, hP⟩ := h x hx
  obtain rfl : z = y := Except.ok.inj (hz.symm.trans hxy)
  exact hP

/-- A traversal comes to an item if it does not fail at one before. -/
def Visits {ε α β : Type} (f : α → Except ε β) (xs : List α) (x : α) : Prop :=
  ∃ before after, xs = before ++ x :: after ∧ ∀ y ∈ before, ∃ z, f y = .ok z

section Visits

variable {ε α β : Type} {f : α → Except ε β} {xs : List α} {x : α}

theorem visits_head (f : α → Except ε β) (x : α) (xs : List α) : Visits f (x :: xs) x :=
  ⟨[], xs, rfl, List.forall_mem_nil _⟩

theorem Visits.mem (h : Visits f xs x) : x ∈ xs := by
  obtain ⟨before, after, rfl, -⟩ := h
  exact List.mem_append_right _ List.mem_cons_self

theorem Visits.cons {y : α} {z : β} (hy : f y = .ok z) (h : Visits f xs x) :
    Visits f (y :: xs) x := by
  obtain ⟨before, after, rfl, hbefore⟩ := h
  exact ⟨y :: before, after, rfl, List.forall_mem_cons.2 ⟨⟨z, hy⟩, hbefore⟩⟩

/-- A traversal that succeeds comes to every item. -/
theorem visits_of_mapM {ys : List β} (h : xs.mapM f = .ok ys) (hx : x ∈ xs) : Visits f xs x := by
  have hall := exists_mapM_eq_ok_iff.1 ⟨ys, h⟩
  obtain ⟨before, after, rfl⟩ := List.append_of_mem hx
  exact ⟨before, after, rfl, (List.forall_mem_append.1 hall).1⟩

end Visits

/-! ## Two computations -/

/-- Two computations give related results, or fail with related errors. -/
inductive Agree {ε ε' α α' : Type} (E : ε → ε' → Prop) (R : α → α' → Prop) :
    Except ε α → Except ε' α' → Prop
  | ok {a : α} {a' : α'} (h : R a a') : Agree E R (.ok a) (.ok a')
  | error {e : ε} {e' : ε'} (h : E e e') : Agree E R (.error e) (.error e')

namespace Agree

variable {ε ε' α α' β β' γ γ' : Type} {E : ε → ε' → Prop} {R : α → α' → Prop} {S : β → β' → Prop}

theorem imp {E' : ε → ε' → Prop} {R' : α → α' → Prop} {x : Except ε α} {x' : Except ε' α'}
    (h : Agree E R x x') (hE : ∀ e e', E e e' → E' e e') (hR : ∀ a a', R a a' → R' a a') :
    Agree E' R' x x' := by
  cases h with
  | ok ha => exact .ok (hR _ _ ha)
  | error he => exact .error (hE _ _ he)

/-- Two computations agree if they do with a third one. -/
theorem join {E' : γ → ε' → Prop} {R' : γ' → α' → Prop} {x : Except ε α} {x' : Except γ γ'}
    {y : Except ε' α'} (h : Agree E R x y) (h' : Agree E' R' x' y) :
    Agree (fun e e' ↦ ∃ f, E e f ∧ E' e' f) (fun a a' ↦ ∃ b, R a b ∧ R' a' b) x x' := by
  cases h with
  | ok ha =>
      cases h' with
      | ok ha' => exact .ok ⟨_, ha, ha'⟩
  | error he =>
      cases h' with
      | error he' => exact .error ⟨_, he, he'⟩

theorem bind_of_eq_ok {x : Except ε α} {x' : Except ε' α'} {k : α → Except ε β}
    {k' : α' → Except ε' β'} (h : Agree E R x x')
    (hk : ∀ a a', x = .ok a → R a a' → Agree E S (k a) (k' a')) :
    Agree E S (x >>= k) (x' >>= k') := by
  cases h with
  | ok ha => exact hk _ _ rfl ha
  | error he => exact .error he

theorem bind {x : Except ε α} {x' : Except ε' α'} {k : α → Except ε β} {k' : α' → Except ε' β'}
    (h : Agree E R x x') (hk : ∀ a a', R a a' → Agree E S (k a) (k' a')) :
    Agree E S (x >>= k) (x' >>= k') :=
  h.bind_of_eq_ok fun a a' _ ↦ hk a a'

/-- It is enough that two traversals agree on what the first one comes to. -/
theorem mapM_of_visits {f : γ → Except ε α} {g : γ' → Except ε' α'} {T : γ → γ' → Prop}
    {xs : List γ} {ys : List γ'} (h : List.Forall₂ T xs ys)
    (hfg : ∀ x y, Visits f xs x → T x y → Agree E R (f x) (g y)) :
    Agree E (List.Forall₂ R) (xs.mapM f) (ys.mapM g) := by
  induction h with
  | nil => exact .ok .nil
  | @cons x y xs ys hxy _ ih =>
      rw [List.mapM_cons, List.mapM_cons]
      refine (hfg x y (visits_head f x xs) hxy).bind_of_eq_ok fun a a' hok ha ↦ ?_
      have hrest := ih fun z w hz hzw ↦ hfg z w (hz.cons hok) hzw
      exact hrest.bind fun as as' has ↦ .ok (.cons ha has)

theorem mapM {f : γ → Except ε α} {g : γ' → Except ε' α'} {xs : List γ} {ys : List γ'}
    (h : List.Forall₂ (fun x y ↦ Agree E R (f x) (g y)) xs ys) :
    Agree E (List.Forall₂ R) (xs.mapM f) (ys.mapM g) :=
  mapM_of_visits h fun _ _ _ hxy ↦ hxy

theorem eq {x : Except ε α} {x' : Except ε α} {E : ε → ε → Prop} (h : Agree E Eq x x')
    (hE : ∀ e e', E e e' → e = e') : x = x' := by
  cases h with
  | ok ha => rw [ha]
  | error he => rw [hE _ _ he]

end Agree

end Typings
