import ContainerInit.Proofs.Dialogue.Regime

/-! # Triples

A triple says what holds of the world after an action that does not fail, if something holds of it before.  Neither
the history nor the state of the action matters, so that triples reach into actions that are carried out over a state
of their own.

This is all that is needed to say how the kernel is left by an action: which signals are blocked, say, or how late it
is.  What holds is stated of a world in which things happen by themselves as well, and so it has to outlast that
(`triple_ask`).  The steps of a program are then joined by `Triple.bind`, and a loop needs a condition that each round
brings back. -/

namespace ContainerInit

open Relation

/-- A dialogue makes the same calls when they are asked from another state. -/
theorem Dialogue.assures_askedFrom {S : Signature} {σ τ α : Type} {W : World S}
    {asks : W.State → S.Call → Prop} {ends : W.State → α → Prop} {s : σ} {p : Dialogue (S.inState τ) α}
    {h : List (Exchange (S.inState τ))} {h' : List (Exchange (S.inState σ))} {k : W.State}
    (hp : p.Assures (W.inState τ) (fun _ k q => asks k q.1) (fun _ k a => ends k a) h k) :
    (p.askedFrom s).Assures (W.inState σ) (fun _ k q => asks k q.1) (fun _ k a => ends k a) h' k := by
  induction p generalizing h h' k with
  | done a => exact hp
  | ask q next ih => exact fun k₁ d => ⟨(hp k₁ d).1, fun r k₂ a => ih r ((hp k₁ d).2 r k₂ a)⟩
  | exhausted => trivial

namespace Action

variable {σ τ α β γ : Type} {W : World Kernel.signature} {asks : W.State → Kernel.Call → Prop}
  {P : W.State → Prop}

/-- In a state of the world with `P`, all calls of the action satisfy `asks`, and unless it fails it
leaves a state with `Q`. -/
def Triple (asks : W.State → Kernel.Call → Prop) (P : W.State → Prop) (x : Action σ α)
    (Q : α → W.State → Prop) : Prop :=
  ∀ ⦃n : Nat⦄ ⦃h : History σ⦄ ⦃k : W.State⦄ ⦃s : σ⦄, P k →
    Assures W (fun _ k c _ => asks k c) x (fun _ k a _ => match a with
      | .ok v => Q v k
      | .error _ => True) n h k s

/-- The regime of a condition on the world. -/
def Regime.ofWorld (asks : W.State → Kernel.Call → Prop) (P : W.State → Prop) (σ : Type) : Regime W σ where
  asks _ k c _ := asks k c
  inv _ k _ := P k
  errors _ := True

/-- A condition on the world that is kept is one before and after. -/
theorem Keeps.triple {x : Action σ α} (hx : Keeps (.ofWorld asks P σ) x) :
    Triple asks P x fun _ => P := by
  intro n h k s hk
  refine (hx hk).imp fun _ k a _ hm => ?_
  cases a with
  | ok v => exact hm.1
  | error e => trivial

theorem triple_pure {a : α} {Q : α → W.State → Prop} (h : ∀ k, P k → Q a k) :
    Triple asks P (pure a : Action σ α) Q := fun _ _ k _ hk => h k hk

theorem triple_throw {e : Error} {Q : α → W.State → Prop} : Triple asks P (throw e : Action σ α) Q :=
  fun _ _ _ _ _ => trivial

theorem triple_ofExcept {x : Except Error α} {Q : α → W.State → Prop}
    (h : ∀ a k, x = .ok a → P k → Q a k) : Triple asks P (ofExcept x : Action σ α) Q := by
  intro n _ k s hk
  cases x with
  | ok a => exact h a k rfl hk
  | error e => trivial

theorem triple_true {x : Action σ α} : Triple (fun _ _ => True) P x fun _ _ => True :=
  fun _ _ _ _ _ => assures_true.imp fun _ _ a _ _ => by cases a <;> trivial

theorem triple_of_false {x : Action σ α} {Q : α → W.State → Prop} : Triple asks (fun _ => False) x Q :=
  fun _ _ _ _ hk => hk.elim

/-- Less may be claimed of the world after, and more be known before. -/
theorem Triple.imp {x : Action σ α} {P' : W.State → Prop} {Q Q' : α → W.State → Prop}
    (hx : Triple asks P x Q) (hp : ∀ k, P' k → P k) (hq : ∀ a k, Q a k → Q' a k) : Triple asks P' x Q' := by
  intro n h k s hk
  refine (hx (hp k hk)).imp fun _ k a _ hm => ?_
  cases a with
  | ok v => exact hq v k hm
  | error e => trivial

theorem Triple.weaken {x : Action σ α} {P' : W.State → Prop} {Q : α → W.State → Prop}
    (hp : ∀ k, P' k → P k) (hx : Triple asks P x Q) : Triple asks P' x Q := hx.imp hp fun _ _ => id

/-- What holds after the first action holds before the second. -/
theorem Triple.bind {x : Action σ α} {f : α → Action σ β} {Q : α → W.State → Prop}
    {Q' : β → W.State → Prop} (hx : Triple asks P x Q) (hf : ∀ a, Triple asks (Q a) (f a) Q') :
    Triple asks P (x >>= f) Q' :=
  fun _ _ _ _ hk => (hx hk).bind (fun _ _ a _ hm => hf a hm) fun _ _ _ _ _ => trivial

/-- Each branch may make use of its condition. -/
theorem Triple.ite {c : Prop} [Decidable c] {x y : Action σ α} {Q : α → W.State → Prop}
    (hx : c → Triple asks P x Q) (hy : ¬ c → Triple asks P y Q) :
    Triple asks P (if c then x else y) Q := by
  split
  · exact hx ‹c›
  · exact hy ‹¬ c›

/-- A call, where the condition before it outlasts what happens by itself. -/
theorem triple_ask {c : Kernel.Call} {Q : Kernel.signature.Answer c → W.State → Prop}
    (hd : ∀ {k k'}, P k → W.Drifts k k' → P k') (hc : ∀ {k}, P k → asks k c)
    (ha : ∀ {k a k'}, P k → W.Answers k c a k' → Q a k') : Triple asks P (ask c : Action σ _) Q := by
  intro n h k s hk
  refine assures_ask.mpr fun k₁ d => ?_
  have hk₁ := W.of_drifts hd hk d
  exact ⟨hc hk₁, fun a k₂ h => ha hk₁ h⟩

/-- The condition before a round is there again after it, as long as the loop goes on. -/
theorem Triple.iterate {body : β → Action σ (Round β α)} {Q : α → W.State → Prop}
    (hbody : ∀ b, Triple asks P (body b) fun v k => match v with
      | .again _ => P k
      | .finish a => Q a k) (b : β) : Triple asks P (iterate body b) Q := by
  intro n h k s hk
  refine assures_iterate (fun _ k _ _ => P k) hk fun h k b s hk => ?_
  refine (hbody b hk).imp fun h k v s hm => ?_
  rcases v with e | b | a
  · trivial
  · exact hm
  · exact hm

/-- The same where nothing goes from one round to the next. -/
theorem Triple.repeatUntil {body : Action σ (Option α)} {Q : α → W.State → Prop}
    (hbody : Triple asks P body fun v k => v.elim (P k) (Q · k)) : Triple asks P (repeatUntil body) Q :=
  .iterate (fun _ => hbody.bind fun v => triple_pure fun k hm => by cases v <;> exact hm) ()

/-- A dialogue that is an action of its own never fails. -/
theorem dialogue_ofDialogue (p : Dialogue (Kernel.signature.inState σ) α) (n : Nat) (s : σ) :
    (ofDialogue p : Action σ α).dialogue n s = p >>= fun a => .done (.ok a, s) := by
  change ((p >>= fun a => Dialogue.done (a, s)) >>= fun a => Dialogue.done (Except.ok a.1, a.2)) = _
  rw [Dialogue.bind_bind]
  rfl

/-- What holds after an action holds after it has been carried out over a state of its own. -/
theorem Triple.isolated {x : Action τ α} {Q : α → W.State → Prop} (hx : Triple asks P x Q) (t : τ) :
    Triple asks P (isolated x t : Action σ _) fun v k => ∀ a, v.1 = .ok a → Q a k := by
  intro n h k s hk
  have e : (Action.isolated x t : Action σ _).dialogue n s =
      (ofDialogue ((x.dialogue n t).askedFrom s) : Action σ _).dialogue n s := rfl
  unfold Assures
  rw [e, dialogue_ofDialogue, Dialogue.assures_bind]
  refine (Dialogue.assures_askedFrom (hx (h := []) hk)).imp fun _ k a hm v hv => ?_
  rwa [hv] at hm

end Action

end ContainerInit
