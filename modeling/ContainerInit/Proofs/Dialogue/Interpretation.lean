import ContainerInit.Proofs.Dialogue.Action

/-! # Machines that answer as a world does

A world says which answers there may be, and a machine gives one of them.  `Realizes` relates the two: while the
machine agrees with a state of the world, each of its answers is one that the world may give from there, and the
two agree afterwards.  What the machine does besides answering is something that happens in the world by itself,
before the answer or after it.

A machine need not realize a world as a whole.  There may be calls that it answers in a way of its own, and so a
condition on the calls goes with it, which the action in question has to respect.

What follows is that the run of an action on the machine is one of its runs in the world
(`Realizes.exists_leads`), so that whatever holds of all those runs holds of the one on the machine
(`Always.of_carryOut`).  This works in both directions: what has been proved in the world is a fact about the
machine, and one run on a machine refutes what has been claimed of the world. -/

namespace ContainerInit

open Relation

namespace Dialogue

variable {S : Signature} {M α : Type} {W : World S} {handle : (c : S.Call) → StateM M (S.Answer c)}
  {Agrees : M → W.State → Prop} {good : S.Call → Prop} {p q : Dialogue S α} {k k₁ k₂ : W.State}
  {h : List (Exchange S)} {m m' : M} {a : α}

/-- As long as the machine agrees with the world, it answers every call that is good as the world may. -/
def Realizes (W : World S) (handle : (c : S.Call) → StateM M (S.Answer c)) (Agrees : M → W.State → Prop)
    (good : S.Call → Prop) : Prop :=
  ∀ ⦃m k c⦄, Agrees m k → good c → ∃ k₁ k₂ k₃, ReflTransGen W.Drifts k k₁ ∧
    W.Answers k₁ c ((handle c).run m).1 k₂ ∧ ReflTransGen W.Drifts k₂ k₃ ∧ Agrees ((handle c).run m).2 k₃

/-- A run is also one to whatever becomes of the world by itself. -/
theorem Leads.drifts (run : Leads W p k h q k₁) (d : ReflTransGen W.Drifts k₁ k₂) : Leads W p k h q k₂ := by
  induction d with
  | refl => exact run
  | tail _ d ih => exact ih.drift d

/-- A machine that realizes a world realizes those of which that is an instance. -/
theorem Realizes.map {V : World S} {f : W.State → V.State} (hr : Realizes W handle Agrees good)
    (hd : ∀ {k k'}, W.Drifts k k' → ReflTransGen V.Drifts (f k) (f k'))
    (ha : ∀ {k c r k'}, W.Answers k c r k' → V.Answers (f k) c r (f k')) :
    Realizes V handle (fun m k => ∃ k₀, Agrees m k₀ ∧ k = f k₀) good := by
  have hds : ∀ {k k'}, ReflTransGen W.Drifts k k' → ReflTransGen V.Drifts (f k) (f k') := fun d => by
    induction d with
    | refl => exact .refl
    | tail _ d ih => exact ih.trans (hd d)
  rintro m _ c ⟨k, hk, rfl⟩ hc
  obtain ⟨k₁, k₂, k₃, d, hans, d', hk'⟩ := hr hk hc
  exact ⟨f k₁, f k₂, f k₃, hds d, ha hans, hds d', k₃, hk', rfl⟩

/-- What the machine comes to is what some run in the world comes to, if all calls on the way are good. -/
theorem Realizes.exists_leads (hr : Realizes W handle Agrees good)
    (hgood : ∀ ⦃h c next k'⦄, Leads W p k h (.ask c next) k' → good c) (ha : Agrees m k)
    (he : (p.interpret handle).run m = (some a, m')) : ∃ h k', Leads W p k h (.done a) k' ∧ Agrees m' k' := by
  -- the induction is on what is left of the dialogue when a run has come as far as `q`
  have hfrom : ∀ (q : Dialogue S α) {h k₁ m}, Leads W p k h q k₁ → Agrees m k₁ →
      (q.interpret handle).run m = (some a, m') → ∃ h k', Leads W p k h (.done a) k' ∧ Agrees m' k' := by
    intro q
    induction q with
    | done a' =>
      intro h k₁ m run ha he
      obtain ⟨rfl, rfl⟩ : a' = a ∧ m = m' := by simpa using Prod.mk.inj he
      exact ⟨h, k₁, run, ha⟩
    | ask c next ih =>
      intro h k₁ m run ha he
      obtain ⟨k₂, k₃, k₄, d, hans, d', ha'⟩ := hr ha (hgood run)
      exact ih _ (((run.drifts d).answer hans).drifts d') ha' he
    | exhausted =>
      intro h k₁ m run ha he
      cases congrArg Prod.fst he
  exact hfrom p (.start p k) ha he

end Dialogue

namespace Action

variable {σ α M : Type} {W : World Kernel.signature} {handle : (c : Kernel.Call) → StateM M (Kernel.signature.Answer c)}
  {Agrees : M → W.State → Prop} {good : Kernel.Call → Prop} {x : Action σ α} {n : Nat} {k : W.State} {s s' : σ}
  {m m' : M} {res : Except Error α}

/-- What holds at all moments in the world holds where the action has been carried out on the machine. -/
theorem Always.of_carryOut {P : History σ → W.State → Moment α → σ → Prop} (hx : Always W x s k P)
    (hr : Dialogue.Realizes W handle Agrees good)
    (hgood : Always W x s k fun _ _ moment _ => ∀ c, moment = .asking c → good c) (ha : Agrees m k)
    (he : (carryOut handle x n s).run m = (some (res, s'), m')) : ∃ h k', P h k' (.ended res) s' ∧ Agrees m' k' := by
  have hr' : Dialogue.Realizes (W.inState σ) (fun q => handle q.1) Agrees fun q => good q.1 :=
    fun m k q ha hq => hr ha hq
  obtain ⟨h, k', run, ha'⟩ := hr'.exists_leads (fun h q next k' run => hgood run .asking q.1 rfl) ha he
  exact ⟨h, k', hx run .ended, ha'⟩

end Action

end ContainerInit
