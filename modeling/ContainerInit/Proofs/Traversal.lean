import Mathlib.Data.List.Forall2

/-! # Lists read element by element

A list is read if each of its elements can be.  Otherwise the first that cannot be read says why.

Configurations are read in this way on each of their levels, services, fields and elements of fields, and what can
be said about the whole is always the same.  The reading has succeeded if and only if the elements correspond to what
they are read as, one by one (`mapM_eq_some_iff`, `mapM_eq_ok_iff`); and it fails with the error of the first element
that cannot be read (`FailsFirst`, `mapM_cases`).  The correspondence is `List.Forall₂`. -/

namespace ContainerInit

variable {α β γ ε : Type} {xs : List α} {ys : List β} {zs : List γ}

/-- Each element on the left has one on the right that corresponds to it. -/
theorem exists_of_forall₂ {R : α → β → Prop} {x : α} (h : List.Forall₂ R xs ys) (hx : x ∈ xs) : ∃ y ∈ ys, R x y := by
  induction h with
  | nil => cases hx
  | @cons x' y xs ys hxy _ ih =>
    rcases List.mem_cons.mp hx with rfl | hx
    · exact ⟨y, .head _, hxy⟩
    · obtain ⟨y', hy', hxy'⟩ := ih hx
      exact ⟨y', .tail _ hy', hxy'⟩

/-- A list corresponds to one made of what each of its elements corresponds to. -/
theorem exists_forall₂ {R : α → β → Prop} (h : ∀ x ∈ xs, ∃ y, R x y) : ∃ ys, List.Forall₂ R xs ys := by
  induction xs with
  | nil => exact ⟨[], .nil⟩
  | cons x xs ih =>
    obtain ⟨⟨y, hy⟩, hxs⟩ := List.forall_mem_cons.mp h
    obtain ⟨ys, hys⟩ := ih hxs
    exact ⟨y :: ys, .cons hy hys⟩

/-- Correspondences can be composed. -/
theorem forall₂_comp {R : α → β → Prop} {S : β → γ → Prop} (h : List.Forall₂ R xs ys) (h' : List.Forall₂ S ys zs) :
    List.Forall₂ (fun x z => ∃ y, R x y ∧ S y z) xs zs := by
  induction h generalizing zs with
  | nil =>
    cases h'
    exact .nil
  | cons hxy _ ih =>
    cases h' with
    | cons hyz h' => exact .cons ⟨_, hxy, hyz⟩ (ih h')

/-- Corresponding lists have the same image where corresponding elements have. -/
theorem map_eq_of_forall₂ {R : α → β → Prop} {f : α → γ} {g : β → γ} (h : List.Forall₂ R xs ys)
    (hR : ∀ x y, R x y → g y = f x) : ys.map g = xs.map f := by
  induction h with
  | nil => rfl
  | cons hxy _ ih => rw [List.map_cons, List.map_cons, hR _ _ hxy, ih]

/-- All elements have a value if and only if the values correspond to them. -/
theorem mapM_eq_some_iff {f : α → Option β} :
    xs.mapM f = some ys ↔ List.Forall₂ (fun x y => f x = some y) xs ys := by
  constructor
  · intro h
    induction xs generalizing ys with
    | nil =>
      cases h
      exact .nil
    | cons x xs ih =>
      rw [List.mapM_cons] at h
      obtain ⟨y, hx, h⟩ := Option.bind_eq_some_iff.mp h
      obtain ⟨ys', hxs, h⟩ := Option.bind_eq_some_iff.mp h
      cases h
      exact .cons hx (ih hxs)
  · intro h
    induction h with
    | nil => rfl
    | cons hx _ ih =>
      rw [List.mapM_cons, hx, ih]
      rfl

/-- A sequence succeeds if and only if both of its parts do. -/
theorem bind_eq_ok_iff {x : Except ε α} {f : α → Except ε β} {b : β} :
    x >>= f = .ok b ↔ ∃ a, x = .ok a ∧ f a = .ok b := by
  cases x <;> simp [bind, Except.bind]

theorem mapError_eq_ok_iff {x : Except ε α} {f : ε → β} {a : α} : x.mapError f = .ok a ↔ x = .ok a := by
  cases x <;> simp [Except.mapError]

/-- An error that has been translated comes from an error. -/
theorem mapError_eq_error_iff {x : Except ε α} {f : ε → β} {b : β} :
    x.mapError f = .error b ↔ ∃ e, x = .error e ∧ b = f e := by
  cases x <;> simp [Except.mapError, eq_comm]

theorem eq_ok_of_toOption {x : Except ε α} {a : α} (h : x.toOption = some a) : x = .ok a := by
  cases x with
  | ok b => exact congrArg Except.ok (Option.some.inj h)
  | error e => cases h

variable {f : α → Except ε β} {x x' : α} {y : β} {e : ε}

/-- `x` is the first element that cannot be read, with the error `e`. -/
def FailsFirst (f : α → Except ε β) (xs : List α) (x : α) (e : ε) : Prop :=
  ∃ before after, xs = before ++ x :: after ∧ (∀ b ∈ before, ∃ y, f b = .ok y) ∧ f x = .error e

/-- The first element that cannot be read is one that cannot be read. -/
theorem FailsFirst.eq_error (h : FailsFirst f xs x e) : x ∈ xs ∧ f x = .error e := by
  obtain ⟨before, after, rfl, -, hx⟩ := h
  exact ⟨by simp, hx⟩

/-- An element in front that can be read leaves the first failure what it is. -/
theorem FailsFirst.cons (hx : f x = .ok y) (h : FailsFirst f xs x' e) : FailsFirst f (x :: xs) x' e := by
  obtain ⟨before, after, rfl, hbefore, hx'⟩ := h
  exact ⟨x :: before, after, rfl, List.forall_mem_cons.mpr ⟨⟨y, hx⟩, hbefore⟩, hx'⟩

/-- The elements are read as what they correspond to. -/
theorem mapM_of_forall₂ (h : List.Forall₂ (fun x y => f x = .ok y) xs ys) : xs.mapM f = .ok ys := by
  induction h with
  | nil => rfl
  | cons hx _ ih =>
    rw [List.mapM_cons, hx, ih]
    rfl

/-- Either all elements can be read or one is the first that cannot. -/
theorem mapM_cases (f : α → Except ε β) (xs : List α) :
    (∃ ys, List.Forall₂ (fun x y => f x = .ok y) xs ys) ∨ ∃ x e, FailsFirst f xs x e ∧ xs.mapM f = .error e := by
  induction xs with
  | nil => exact .inl ⟨[], .nil⟩
  | cons x xs ih =>
    cases hx : f x with
    | error e => exact .inr ⟨x, e, ⟨[], xs, rfl, nofun, hx⟩, by rw [List.mapM_cons, hx]; rfl⟩
    | ok y =>
      rcases ih with ⟨ys, hys⟩ | ⟨x', e, hfirst, he⟩
      · exact .inl ⟨y :: ys, .cons hx hys⟩
      · exact .inr ⟨x', e, hfirst.cons hx, by rw [List.mapM_cons, hx, he]; rfl⟩

/-- A list is read as those to which its elements correspond, and as nothing else. -/
theorem mapM_eq_ok_iff : xs.mapM f = .ok ys ↔ List.Forall₂ (fun x y => f x = .ok y) xs ys := by
  refine ⟨fun h => ?_, mapM_of_forall₂⟩
  rcases mapM_cases f xs with ⟨ys', hys⟩ | ⟨_, _, -, he⟩
  · rw [mapM_of_forall₂ hys] at h
    exact Except.ok.inj h ▸ hys
  · rw [he] at h
    cases h

end ContainerInit
