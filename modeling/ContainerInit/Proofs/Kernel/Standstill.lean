import ContainerInit.Proofs.Dialogue.Completion
import ContainerInit.Proofs.Dialogue.Runs
import ContainerInit.Proofs.Kernel.Children
import Mathlib.Data.Set.Basic

/-! # Children at a standstill

The kernel while none of the children changes by itself.  A look at them tells what there is; all that keeps it
from doing so are interruptions, of which there is a number left.  So whatever is found missing afterwards has
been collected, and a loop that looks again after an interruption comes to an end.

That a look tells what there is does not mean that it succeeds.  Where it meets a child whose end cannot be
reported it fails, and whether that child is still there then depends on the call: a look (`Looked`) leaves it
and will meet it again, a wait (`Waited`) has taken it away. -/

namespace ContainerInit.Kernel

open ContainerInit.Action Relation

structure Standstill where
  children : Children
  interruptions : Nat

namespace Standstill

variable {k k' : Standstill} {p target : Pid} {q : Process} {t : Termination} {left : Nat} {found : Option Pid}
  {a : Except Errno WaitStatus}

/-- A look at the children of a target finds what there is, or takes one of the interruptions. -/
inductive Looks (k : Standstill) (target : Pid) : Nat → Option Pid → Except Errno WaitStatus → Prop where
  | revealed {p? : Option Pid} {x} (h : k.children.Reveals target p? x) : Looks k target k.interruptions p? x
  | interrupted {m : Nat} (h : k.interruptions = m + 1) : Looks k target m none (.error .interrupted)

def answers (k : Standstill) : (c : Call) → signature.Answer c → Standstill → Prop
  | .wait target, a, k' => ∃ found, k.Looks target k'.interruptions found a ∧ k'.children = k.children.without found
  | .peek target, a, k' => (∃ found, k.Looks target k'.interruptions found a) ∧ k'.children = k.children
  | c, a, k' => k.children.answers c a k'.children ∧ k'.interruptions = k.interruptions

/-- The world of all the behaviour of such a kernel. -/
def world : World signature := ⟨Standstill, fun _ _ => False, answers⟩

theorem eq_of_drifts (d : ReflTransGen world.Drifts k k') : k' = k :=
  World.eq_of_drifts (fun _ _ => id) d

/-- What is found at a standstill is among what may be found. -/
theorem Looks.finds (h : k.Looks target left found a) : k.children.Finds target found a := by
  cases h with
  | revealed h => exact .revealed h
  | interrupted => exact .failed (by decide)

/-- Such a kernel does nothing that a kernel with these children may not do. -/
theorem children_answers {c : Call} {a : signature.Answer c} (h : k.answers c a k') :
    k.children.answers c a k'.children := by
  cases c with
  | wait target => exact h.imp fun _ hf => ⟨hf.1.finds, hf.2⟩
  | peek target => exact ⟨h.1.imp fun _ hf => hf.finds, h.2⟩
  | _ => exact h.1

/-- Other children have become of those before, and there are no more interruptions left than before. -/
structure Became (k k' : Standstill) (c : Children) : Prop where
  children_eq : k'.children = c
  interruptions_le : k'.interruptions ≤ k.interruptions

/-- The children are what they are. -/
theorem became_refl (k : Standstill) : k.Became k k.children := ⟨rfl, Nat.le_refl _⟩

theorem eq_of_answers_log {l : Log.Record} {u : Unit} (h : k.answers (.log l) u k') : k' = k := by
  obtain ⟨c, m⟩ := k
  obtain ⟨c', m'⟩ := k'
  obtain ⟨rfl, rfl⟩ := h
  rfl

/-- Every call has an answer. -/
theorem exists_answers (k : Standstill) (c : Call) : ∃ a k', k.answers c a k' := by
  cases c with
  | wait target =>
    obtain ⟨found, a, h⟩ := k.children.exists_reveals target
    exact ⟨a, ⟨k.children.without found, k.interruptions⟩, found, .revealed h, rfl⟩
  | peek target =>
    obtain ⟨found, a, h⟩ := k.children.exists_reveals target
    exact ⟨a, k, ⟨found, .revealed h⟩, rfl⟩
  | _ => exact ⟨refusal .tryAgain _, k, rfl, rfl⟩

theorem logs_world : Logs world fun _ => True := by
  intro record _ k k₁ d
  obtain rfl := eq_of_drifts d
  exact ⟨exists_answers _ _, fun u k₂ ha => eq_of_answers_log ha⟩

/-- One child less that has ended. -/
theorem endedSet_remove {c : Children} : {p' | (c.remove p).HasEnded p'} = {p' | c.HasEnded p'} \ {p} := by
  ext p'
  constructor
  · rintro ⟨q, t, hq, ht⟩
    refine ⟨⟨q, t, Children.process_of_remove hq, ht⟩, ?_⟩
    rintro rfl
    rw [Children.process_remove_self] at hq
    cases hq
  · rintro ⟨⟨q, t, hq, ht⟩, hne⟩
    exact ⟨q, t, by rwa [Children.process_remove_ne hne], ht⟩

/-! ## What a call is answered -/

/-- What a look at all children is answered.  It leaves the children alone, and where it meets an end that
cannot be reported it fails each time. -/
inductive Looked (k k' : Standstill) : Except Errno WaitStatus → Prop where
  | ended {p : Pid} {q : Process} {t : Termination} (hp : k.children.process p = some q) (hq : q.ended = some t)
      (hk : k' = k) : Looked k k' (t.report p)
  | stillAlive {p : Pid} (hp : k.children.Has p) (he : ∀ p, ¬ k.children.HasEnded p) (hk : k' = k) :
      Looked k k' (.ok .stillAlive)
  | noChild (hn : ∀ p, ¬ k.children.Has p) (hk : k' = k) : Looked k k' (.error .noChild)
  | interrupted (hk : k = ⟨k'.children, k'.interruptions + 1⟩) : Looked k k' (.error .interrupted)

theorem looked_of_answers (h : k.answers (.peek (-1)) a k') : Looked k k' a := by
  obtain ⟨c, m⟩ := k
  obtain ⟨c', m'⟩ := k'
  obtain ⟨⟨found, hl⟩, rfl⟩ := h
  cases hl with
  | revealed hr =>
    cases hr with
    | ended hp _ hq => exact .ended hp hq rfl
    | stillAlive hp hc hne =>
      refine .stillAlive ⟨_, hp⟩ (fun p ⟨q, t, hq, ht⟩ => ?_) rfl
      cases (hne p q hq (.inl rfl)).symm.trans ht
    | noChild hn => exact .noChild (fun p ⟨q, hq⟩ => hn p q hq (.inl rfl)) rfl
  | interrupted h =>
    obtain rfl : m = m' + 1 := h
    exact .interrupted rfl

/-- What the attempt to collect a child of a target is answered.  A child that has ended is gone afterwards,
whether its end can be reported or not. -/
inductive Waited (k k' : Standstill) (target : Pid) : Except Errno WaitStatus → Prop where
  | ended {p : Pid} {q : Process} {t : Termination} (hp : k.children.process p = some q)
      (hc : Children.Covers target p q) (hq : q.ended = some t)
      (hk : k' = ⟨k.children.remove p, k.interruptions⟩) : Waited k k' target (t.report p)
  | stillAlive {p : Pid} {q : Process} (hp : k.children.process p = some q) (hc : Children.Covers target p q)
      (hne : ∀ p q, k.children.process p = some q → Children.Covers target p q → q.ended = none) (hk : k' = k) :
      Waited k k' target (.ok .stillAlive)
  | noChild (hn : ∀ p q, k.children.process p = some q → ¬ Children.Covers target p q) (hk : k' = k) :
      Waited k k' target (.error .noChild)
  | interrupted (hk : k = ⟨k'.children, k'.interruptions + 1⟩) : Waited k k' target (.error .interrupted)

theorem waited_of_answers (h : k.answers (.wait target) a k') : Waited k k' target a := by
  obtain ⟨c, m⟩ := k
  obtain ⟨c', m'⟩ := k'
  obtain ⟨found, hl, rfl⟩ := h
  cases hl with
  | revealed hr =>
    cases hr with
    | ended hp hc hq => exact .ended hp hc hq rfl
    | stillAlive hp hc hne => exact .stillAlive hp hc hne rfl
    | noChild hn => exact .noChild hn rfl
  | interrupted h =>
    obtain rfl : m = m' + 1 := h
    exact .interrupted rfl

/-- What the attempt to collect a child that has ended is answered. -/
inductive Collected (k k' : Standstill) (p : Pid) (t : Termination) : Except Errno WaitStatus → Prop where
  | ended (hk : k' = ⟨k.children.remove p, k.interruptions⟩) : Collected k k' p t (t.report p)
  | interrupted (hk : k = ⟨k'.children, k'.interruptions + 1⟩) : Collected k k' p t (.error .interrupted)

/-- Of a single child that has ended, there is nothing but its end to be found. -/
theorem collected_of_answers (hp : k.children.process p = some q) (hq : q.ended = some t)
    (h : k.answers (.wait p) a k') : Collected k k' p t a := by
  cases waited_of_answers h with
  | ended hp' hc hq' hk =>
    obtain rfl := hc.eq (k.children.positive hp)
    obtain rfl := Option.some.inj (hp.symm.trans hp')
    obtain rfl := Option.some.inj (hq.symm.trans hq')
    exact .ended hk
  | stillAlive _ _ hne => cases (hne p q hp Children.covers_self).symm.trans hq
  | noChild hn => exact absurd Children.covers_self (hn p q hp)
  | interrupted hk => exact .interrupted hk

end Standstill

end ContainerInit.Kernel
