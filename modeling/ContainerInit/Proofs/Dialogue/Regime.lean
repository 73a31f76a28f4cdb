import ContainerInit.Proofs.Dialogue.Action

/-! # Regimes

A regime is an invariant between actions, with what has to hold whenever something is asked and the errors that may
come up.  Whether an action keeps a regime follows from its parts.

The invariant need not hold while an action is being carried out, only before it and after it, and also after it has
failed.  That is what makes the rules so short: in whatever way actions that keep a regime are put together, the
outcome keeps it.  What is special about an action is then shown once, at the place where a call is made.

Errors are part of a regime because they are dealt with in some places and passed on in others
(`Keeps.attempt_bind_of_failing`), and which of them may come out of a program is part of what is said about it. -/

namespace ContainerInit.Action

/-- What is kept up over actions. -/
structure Regime (W : World Kernel.signature) (σ : Type) where
  asks : Asks W σ
  inv : History σ → W.State → σ → Prop
  errors : Error → Prop

variable {σ α β : Type} {W : World Kernel.signature} {R : Regime W σ}

/-- The invariant is left as it was found; an error is one of the regime, and a result satisfies `Q`. -/
def Regime.ends (R : Regime W σ) (Q : History σ → W.State → α → σ → Prop) : Ends W σ α :=
  fun h k a s => R.inv h k s ∧ match a with
    | .ok a => Q h k a s
    | .error e => R.errors e

/-- The action has its calls and errors within the regime, and leaves the invariant as it found it. -/
def Keeps (R : Regime W σ) (x : Action σ α) : Prop := ∀ ⦃n : Nat⦄ ⦃h : History σ⦄ ⦃k : W.State⦄ ⦃s : σ⦄,
  R.inv h k s → Assures W R.asks x (R.ends fun _ _ _ _ => True) n h k s

/-- Errors pass through. -/
theorem Assures.bind_ends {x : Action σ α} {f : α → Action σ β} {n : Nat} {h : History σ} {k : W.State}
    {s : σ} {Q : History σ → W.State → α → σ → Prop} {Q' : History σ → W.State → β → σ → Prop}
    (hx : Assures W R.asks x (R.ends Q) n h k s)
    (hf : ∀ h k a s, R.inv h k s → Q h k a s → Assures W R.asks (f a) (R.ends Q') n h k s) :
    Assures W R.asks (x >>= f) (R.ends Q') n h k s :=
  hx.bind (fun h k a s hm => hf h k a s hm.1 hm.2) fun _ _ _ _ hm => hm

theorem keeps_pure (a : α) : Keeps R (pure a : Action σ α) := fun _ _ _ _ hi => ⟨hi, trivial⟩

theorem keeps_get : Keeps R (get : Action σ σ) := fun _ _ _ _ hi => ⟨hi, trivial⟩

theorem keeps_throw {e : Error} (he : R.errors e) : Keeps R (throw e : Action σ α) :=
  fun _ _ _ _ hi => ⟨hi, he⟩

theorem keeps_ofExcept {x : Except Error α} (he : ∀ e, x = .error e → R.errors e) :
    Keeps R (ofExcept x : Action σ α) := by
  intro n h k s hi
  cases x with
  | ok a => exact ⟨hi, trivial⟩
  | error e => exact ⟨hi, he e rfl⟩

theorem Keeps.bind {x : Action σ α} {f : α → Action σ β} (hx : Keeps R x) (hf : ∀ a, Keeps R (f a)) :
    Keeps R (x >>= f) :=
  fun _ _ _ _ hi => (hx hi).bind_ends fun _ _ a _ hi _ => hf a hi

/-- A call leaves the state alone. -/
theorem Keeps.ask_bind {c : Kernel.Call} {f : Kernel.signature.Answer c → Action σ α} {n : Nat}
    {h : History σ} {k : W.State} {s : σ} {ends : Ends W σ α} (hc : Keeps R (ask c)) (hi : R.inv h k s)
    (hf : ∀ a h k, R.inv h k s → Assures W R.asks (f a) ends n h k s) :
    Assures W R.asks (ask c >>= f) ends n h k s := by
  refine assures_bind.mpr (assures_ask.mpr fun k₁ d => ?_)
  obtain ⟨hasks, hans⟩ := assures_ask.mp (hc (n := n) hi) k₁ d
  exact ⟨hasks, fun a k₂ ha => hf a _ _ (hans a k₂ ha).1⟩

/-- The same regime but for the errors. -/
def Regime.failing (R : Regime W σ) (errors : Error → Prop) : Regime W σ := { R with errors }

/-- The errors of a regime may be replaced by more of them. -/
theorem Keeps.failing {errors : Error → Prop} {x : Action σ α} (hx : Keeps R x)
    (he : ∀ e, R.errors e → errors e) : Keeps (R.failing errors) x := by
  intro n h k s hi
  refine (hx hi).imp fun h k a s hm => ⟨hm.1, ?_⟩
  cases a with
  | ok a => trivial
  | error e => exact he e hm.2

/-- The error that an attempt may yield is dealt with by what follows. -/
theorem Keeps.attempt_bind_of_failing {errors : Error → Prop} {x : Action σ α}
    {f : Except Error α → Action σ β} (hx : Keeps (R.failing errors) x) (hok : ∀ a, Keeps R (f (.ok a)))
    (herr : ∀ e, errors e → Keeps R (f (.error e))) : Keeps R (attempt x >>= f) := by
  intro n h k s hi
  refine assures_bind.mpr (assures_attempt.mpr ((hx hi).imp fun h k a s hm => ?_))
  cases a with
  | ok a => exact hok a hm.1
  | error e => exact herr e hm.2 hm.1

/-- What follows on an attempt has to deal with the errors of the regime. -/
theorem Keeps.attempt_bind {x : Action σ α} {f : Except Error α → Action σ β} (hx : Keeps R x)
    (hok : ∀ a, Keeps R (f (.ok a))) (herr : ∀ e, R.errors e → Keeps R (f (.error e))) :
    Keeps R (attempt x >>= f) :=
  (hx.failing fun _ => id).attempt_bind_of_failing hok herr

theorem Keeps.attempt {x : Action σ α} (hx : Keeps R x) : Keeps R (attempt x) := fun _ _ _ _ hi =>
  assures_attempt.mpr ((hx hi).imp fun _ _ _ _ hm => ⟨hm.1, trivial⟩)

/-- Each branch may make use of its condition. -/
theorem Keeps.ite {c : Prop} [Decidable c] {x y : Action σ α} (hx : c → Keeps R x)
    (hy : ¬ c → Keeps R y) : Keeps R (if c then x else y) := by
  split
  · exact hx ‹c›
  · exact hy ‹¬ c›

/-- The invariant of the regime is that of the loop. -/
theorem Keeps.iterate {body : β → Action σ (Round β α)} (hbody : ∀ b, Keeps R (body b)) (b : β) :
    Keeps R (iterate body b) := by
  intro n h k s hi
  refine assures_iterate (fun h k _ s => R.inv h k s) hi fun h k b s hi => ?_
  refine (hbody b hi).imp fun h k a s hm => ?_
  rcases a with e | b | a
  · exact hm
  · exact hm.1
  · exact ⟨hm.1, trivial⟩

theorem Keeps.repeatUntil {body : Action σ (Option α)} (hbody : Keeps R body) :
    Keeps R (repeatUntil body) :=
  .iterate (fun _ => hbody.bind fun _ => keeps_pure _) ()

theorem keeps_forM {f : β → Action σ PUnit} (l : List β) (hf : ∀ b, Keeps R (f b)) :
    Keeps R (l.forM f) := by
  induction l with
  | nil => exact keeps_pure _
  | cons b l ih => exact (hf b).bind fun _ => ih

/-- One action after the other, with their results. -/
theorem keeps_mapM {f : β → Action σ α} (l : List β) (hf : ∀ b, Keeps R (f b)) :
    Keeps R (l.mapM f) := by
  induction l with
  | nil => exact keeps_pure _
  | cons b l ih =>
    rw [List.mapM_cons]
    exact (hf b).bind fun _ => ih.bind fun _ => keeps_pure _

/-- One question after the other. -/
theorem keeps_filterM {f : β → Action σ Bool} (l : List β) (hf : ∀ b, Keeps R (f b)) :
    Keeps R (l.filterM f) := by
  have hgo : ∀ acc, Keeps R (l.filterAuxM f acc) := by
    induction l with
    | nil => exact fun acc => keeps_pure _
    | cons b l ih => exact fun acc => (hf b).bind fun c => ih _
  exact (hgo []).bind fun _ => keeps_pure _

end ContainerInit.Action
