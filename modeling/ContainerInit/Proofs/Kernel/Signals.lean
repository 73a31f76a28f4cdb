import ContainerInit.Proofs.Kernel.Children
import Mathlib.Data.Set.Insert

/-! # Pending signals

The kernel with the children of the supervisor and the signals that are pending for it.  Whenever a child has ended,
or an orphan that has ended becomes a child, `SIGCHLD` is pending; but a signal that is pending already is not pending
twice.  Signals that are blocked are only ever taken by waiting for them.

So one notice may stand for any number of children, and it is gone once it has been taken.  `Announced` is what is
left of the connection between the two: who has ended and has not been collected is announced.  It is lost when the
notice is taken, and holds again after all children that have ended have been collected.  In between nothing else
loses it: not another signal (`Announced.awaitSignal`), not a call that is about something else
(`Announced.answers`), and not a new mask as long as that has the signal blocked (`Announced.setMask`). -/

namespace ContainerInit.Kernel

/-- The children, and the signals that are pending. -/
@[ext] structure Signalled where
  children : Children
  pending : Set Signal

namespace Signalled

variable {k k' : Signalled}

/-- There is a child that has ended and has not been collected. -/
def SomeEnded (k : Signalled) : Prop := ∃ p, k.children.HasEnded p

/-- If a child has ended and has not been collected, `SIGCHLD` is pending. -/
def Announced (k : Signalled) : Prop := k.SomeEnded → Signal.child ∈ k.pending

/-- What may happen by itself: something to the children, with the notice of it, or any other signal. -/
inductive Drifts : Signalled → Signalled → Prop where
  | children {c c' : Children} {s s' : Set Signal} (d : c.Drifts c') (hs : s ⊆ s')
      (hc : ∀ p, c'.HasEnded p → ¬ c.HasEnded p → Signal.child ∈ s') : Drifts ⟨c, s⟩ ⟨c', s'⟩
  | signal {c : Children} {s : Set Signal} (x : Signal) : Drifts ⟨c, s⟩ ⟨c, insert x s⟩

/-- The signals of which more than one can be pending. -/
def realTime (x : Signal) : Prop := 32 ≤ x

/-- What becomes of the pending signals by a call and its answer.  A signal that is taken is pending no
more, unless it is one of those that queue; those that a new mask lets through may go. -/
def answers (s : Set Signal) : (call : Call) → signature.Answer call → Set Signal → Prop
  | .awaitSignal _, .ok info, s' => info.signal ∈ s ∧
      (s' = s \ {info.signal} ∨ realTime info.signal ∧ s' = s)
  | .setMask mask, .ok _, s' => s' ⊆ s ∧ ∀ x ∈ s, x ∈ mask → x ∈ s'
  | _, _, s' => s' = s

/-- The world of all the behaviour of such a kernel. -/
def world : World signature where
  State := Signalled
  Drifts := Drifts
  Answers k c a k' := k.children.answers c a k'.children ∧ answers k.pending c a k'.pending

/-- Who ends by itself is announced. -/
theorem Announced.drift (h : k.Announced) (d : Drifts k k') : k'.Announced := by
  cases d with
  | @children c c' s s' d hs hc =>
    rintro ⟨p, hp⟩
    by_cases hold : c.HasEnded p
    · exact hs (h ⟨p, hold⟩)
    · exact hc p hp hold
  | signal x => exact fun he => .inr (h he)

/-- No child has ended by the answer to a call. -/
theorem someEnded_of_answers {c : Call} {a : signature.Answer c} (h : k.children.answers c a k'.children)
    (he : k'.SomeEnded) : k.SomeEnded :=
  he.imp fun _ hp => hp.of_answers h

/-- Only two calls touch the pending signals. -/
theorem answers_eq {s s' : Set Signal} {c : Call} {a : signature.Answer c}
    (hc : ∀ timeout, c ≠ .awaitSignal timeout) (hm : ∀ mask, c ≠ .setMask mask) (h : answers s c a s') :
    s' = s := by
  cases c with
  | awaitSignal timeout => exact absurd rfl (hc timeout)
  | setMask mask => exact absurd rfl (hm mask)
  | _ => exact h

/-- A call does not end any child, and so it is enough that the notice outlasts it. -/
theorem Announced.answers {c : Call} {a : signature.Answer c} (h : k.Announced)
    (hk : world.Answers k c a k') (hc : Signal.child ∈ k.pending → Signal.child ∈ k'.pending) :
    k'.Announced := fun he => hc (h (someEnded_of_answers hk.1 he))

/-- The notice stays if another signal is taken. -/
theorem Announced.awaitSignal {timeout : Option Nat} {a : Except Errno SignalInfo} (h : k.Announced)
    (hk : world.Answers k (.awaitSignal timeout) a k')
    (ha : ∀ info, a = .ok info → info.signal ≠ Signal.child) : k'.Announced := by
  refine h.answers hk fun hs => ?_
  cases a with
  | error e =>
    have he : k'.pending = k.pending := hk.2
    rwa [he]
  | ok info =>
    rcases hk.2.2 with he | ⟨-, he⟩
    · rw [he]
      exact ⟨hs, fun e => ha info rfl e.symm⟩
    · rwa [he]

/-- The notice stays as long as the signal is blocked. -/
theorem Announced.setMask {mask : SignalSet} {a : Except Errno SignalSet} (h : k.Announced)
    (hk : world.Answers k (.setMask mask) a k') (hm : Signal.child ∈ mask) : k'.Announced := by
  refine h.answers hk fun hs => ?_
  cases a with
  | error e =>
    have he : k'.pending = k.pending := hk.2
    rwa [he]
  | ok old => exact hk.2.2 _ hs hm

end Signalled

end ContainerInit.Kernel
