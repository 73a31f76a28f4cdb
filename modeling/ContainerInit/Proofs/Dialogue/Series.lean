import ContainerInit.Proofs.Dialogue.Runs

/-! # Series of runs

Where an action does the same for each element of a list, its run falls into one piece for each of them, one after
the other, up to the first that fails.

`Series` is the bare arrangement: what a piece is like is a parameter, and so the same lemmas do for pieces that are
runs, and for pieces of which only some property is known.  `Through` is what a run over a list comes to.  Either all
elements have an answer, or there is a first one that fails, with the answers of those before.

## Traversals

The traversals of the library collect the answers in different ways, with the elements dropped or the answers
dropped.  All of them are what becomes of `paired`, which keeps both, and so only that one is looked at closely. -/

namespace ContainerInit.Action

variable {σ α β γ : Type} {n : Nat} {s s' s₁ s₂ : σ} {h h₁ h₂ : History σ}

/-- One piece of the history for each element of the list, which leads from one state to the next by `P`. -/
inductive Series (P : β → σ → History σ → σ → Prop) : List β → σ → History σ → σ → Prop where
  | nil (s : σ) : Series P [] s [] s
  | cons {x : β} {xs : List β} {s s₁ s₂ : σ} {h₁ h₂ : History σ} (hx : P x s h₁ s₁)
      (hs : Series P xs s₁ h₂ s₂) : Series P (x :: xs) s (h₁ ++ h₂) s₂

namespace Series

variable {P : β → σ → History σ → σ → Prop} {Q : γ → σ → History σ → σ → Prop} {x : β} {xs ys : List β}

theorem imp {P' : β → σ → History σ → σ → Prop} (hs : Series P xs s h s')
    (hp : ∀ x s h s', P x s h s' → P' x s h s') : Series P' xs s h s' := by
  induction hs with
  | nil s => exact .nil s
  | cons hx _ ih => exact .cons (hp _ _ _ _ hx) ih

/-- What a piece says of its element holds of all elements. -/
theorem forall_mem {good : β → Prop} (hs : Series P xs s h s') (hp : ∀ x s h s', P x s h s' → good x) :
    ∀ x ∈ xs, good x := by
  induction hs with
  | nil s => nofun
  | cons hx _ ih => exact List.forall_mem_cons.mpr ⟨hp _ _ _ _ hx, ih⟩

/-- One piece is a series. -/
theorem single (hx : P x s h s') : Series P [x] s h s' := by
  have hs := cons hx (.nil s')
  rwa [List.append_nil] at hs

/-- Two series one after the other are a series. -/
theorem append (hx : Series P xs s h₁ s₁) (hy : Series P ys s₁ h₂ s₂) :
    Series P (xs ++ ys) s (h₁ ++ h₂) s₂ := by
  induction hx with
  | nil => exact hy
  | cons hx hs ih =>
    rw [List.append_assoc]
    exact .cons hx (ih hy)

/-- Around an element, a series falls into what is before it, its piece, and what is after it. -/
theorem split (hs : Series P (xs ++ x :: ys) s h s') : ∃ h₁ h₂ h₃ s₁ s₂, h = h₁ ++ (h₂ ++ h₃) ∧
    Series P xs s h₁ s₁ ∧ P x s₁ h₂ s₂ ∧ Series P ys s₂ h₃ s' := by
  induction xs generalizing s h with
  | nil =>
    cases hs with
    | cons hx hs => exact ⟨[], _, _, _, _, rfl, .nil s, hx, hs⟩
  | cons y xs ih =>
    cases hs with
    | cons hy hs =>
      obtain ⟨h₁, h₂, h₃, s₁, s₂, rfl, hxs, hx, hys⟩ := ih hs
      exact ⟨_, h₂, h₃, s₁, s₂, (List.append_assoc ..).symm, .cons hy hxs, hx, hys⟩

/-- The pieces may be told in another way, one by one. -/
theorem exists_map {f : γ → β} (hs : Series P xs s h s')
    (hpq : ∀ x ∈ xs, ∀ s h s', P x s h s' → ∃ y, f y = x ∧ Q y s h s') :
    ∃ ys : List γ, ys.map f = xs ∧ Series Q ys s h s' := by
  induction hs with
  | nil s => exact ⟨[], rfl, .nil s⟩
  | cons hx _ ih =>
    obtain ⟨hpqx, hpqxs⟩ := List.forall_mem_cons.mp hpq
    obtain ⟨y, rfl, hy⟩ := hpqx _ _ _ hx
    obtain ⟨ys, rfl, hys⟩ := ih hpqxs
    exact ⟨y :: ys, rfl, .cons hy hys⟩

end Series

/-! ## Runs over a list -/

/-- A run of the action for the first of the pair answers the second. -/
def Answers (f : β → Action σ α) (n : Nat) (x : β × α) (s : σ) (h : History σ) (s' : σ) : Prop :=
  Runs (f x.1) n s h (.ok x.2) s'

/-- What a run over a list comes to: an answer for each element, or the error of the first that fails. -/
inductive Through (f : β → Action σ α) (n : Nat) :
    List β → σ → History σ → Except Error (List (β × α)) → σ → Prop where
  | complete {xs : List (β × α)} {s s' : σ} {h : History σ} (hs : Series (Answers f n) xs s h s') :
      Through f n (xs.map Prod.fst) s h (.ok xs) s'
  | stopped {done : List (β × α)} {x : β} {e : Error} {s s₁ s' : σ} {h₁ h₂ : History σ} (rest : List β)
      (hs : Series (Answers f n) done s h₁ s₁) (hx : Runs (f x) n s₁ h₂ (.error e) s') :
      Through f n (done.map Prod.fst ++ x :: rest) s (h₁ ++ h₂) (.error e) s'

/-- One more element at the front that has an answer. -/
theorem Through.cons {f : β → Action σ α} {x : β} {y : α} {l : List β} {out : Except Error (List (β × α))}
    (hx : Runs (f x) n s h₁ (.ok y) s₁) (hl : Through f n l s₁ h₂ out s') :
    Through f n (x :: l) s (h₁ ++ h₂) (out.map ((x, y) :: ·)) s' := by
  have hx : Answers f n (x, y) s h₁ s₁ := hx
  cases hl with
  | complete hs => exact .complete (.cons hx hs)
  | stopped rest hs hz =>
    rw [← List.append_assoc]
    exact .stopped rest (.cons hx hs) hz

/-- Where nothing fails, there is an answer for each element. -/
theorem Through.of_not_error {f : β → Action σ α} {l : List β} {out : Except Error (List (β × α))}
    (hl : Through f n l s h out s') (hf : ∀ x s h e s', ¬ Runs (f x) n s h (.error e) s') :
    ∃ xs, xs.map Prod.fst = l ∧ out = .ok xs ∧ Series (Answers f n) xs s h s' := by
  cases hl with
  | complete hs => exact ⟨_, rfl, rfl, hs⟩
  | stopped rest hs hx => exact absurd hx (hf _ _ _ _ _)

/-- Each element of the list with its answer. -/
def paired (f : β → Action σ α) (l : List β) : Action σ (List (β × α)) := l.mapM fun x => do return (x, ← f x)

/-- The answers are asked for in the order of the list. -/
theorem paired_cons (f : β → Action σ α) (x : β) (l : List β) : paired f (x :: l) = do
    let y ← f x
    let xs ← paired f l
    return (x, y) :: xs := by
  rw [paired, List.mapM_cons]
  simp only [bind_assoc, pure_bind]
  rfl

/-- By induction on the list: either the first element fails, or the rest is gone through. -/
theorem through_of_runs_paired {f : β → Action σ α} {l : List β} {res : Except Error (List (β × α))}
    (hr : Runs (paired f l) n s h res s') : Through f n l s h res s' := by
  induction l generalizing s h res with
  | nil =>
    obtain ⟨rfl, rfl, rfl⟩ := runs_pure_iff.mp hr
    exact .complete (.nil s')
  | cons x l ih =>
    rw [paired_cons] at hr
    rcases runs_bind_iff.mp hr with ⟨h₁, h₂, y, s₁, rfl, hx, hrest⟩ | ⟨e, rfl, hx⟩
    · obtain ⟨out, hl, rfl⟩ := runs_bind_pure_iff.mp hrest
      exact (ih hl).cons hx
    · have hs : Series (Answers f n) [] s [] s := .nil s
      exact .stopped l hs hx

theorem mapM_eq_paired (f : β → Action σ α) (l : List β) :
    l.mapM f = do return (← paired f l).map Prod.snd := by
  induction l with
  | nil => rfl
  | cons x l ih => simp [ih, paired_cons]

/-- A selection collects its elements in the opposite order, before those it has already. -/
theorem filterAuxM_eq_paired (f : β → Action σ Bool) (l acc : List β) : l.filterAuxM f acc = do
    return (((← paired f l).filter Prod.snd).map Prod.fst).reverse ++ acc := by
  induction l generalizing acc with
  | nil => rfl
  | cons x l ih =>
    rw [List.filterAuxM, paired_cons]
    simp only [bind_assoc, pure_bind]
    congr 1
    funext found
    rw [ih]
    cases found <;> simp

theorem filterM_eq_paired (f : β → Action σ Bool) (l : List β) :
    l.filterM f = do return ((← paired f l).filter Prod.snd).map Prod.fst := by
  rw [List.filterM, filterAuxM_eq_paired]
  simp

/-- What becomes of the answers by themselves. -/
theorem through_of_runs_mapM {f : β → Action σ α} {l : List β} {res : Except Error (List α)}
    (hr : Runs (l.mapM f) n s h res s') :
    ∃ out, Through f n l s h out s' ∧ res = out.map (List.map Prod.snd) := by
  rw [mapM_eq_paired] at hr
  obtain ⟨out, hl, rfl⟩ := runs_bind_pure_iff.mp hr
  exact ⟨out, through_of_runs_paired hl, rfl⟩

/-- What becomes of the elements for which the answer is yes. -/
theorem through_of_runs_filterM {f : β → Action σ Bool} {l : List β} {res : Except Error (List β)}
    (hr : Runs (l.filterM f) n s h res s') :
    ∃ out, Through f n l s h out s' ∧ res = out.map fun xs => (xs.filter Prod.snd).map Prod.fst := by
  rw [filterM_eq_paired] at hr
  obtain ⟨out, hl, rfl⟩ := runs_bind_pure_iff.mp hr
  exact ⟨out, through_of_runs_paired hl, rfl⟩

theorem halts_filterM {f : β → Action σ Bool} (l : List β) (hf : ∀ b, Halts (f b)) :
    Halts (l.filterM f) := by
  rw [filterM_eq_paired]
  exact (halts_mapM l fun b => (hf b).bind fun _ => halts_pure _).bind fun _ => halts_pure _

end ContainerInit.Action
