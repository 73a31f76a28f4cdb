import ContainerInit.Kernel.Call
import ContainerInit.Proofs.Dialogue.World

/-! # The clock

The kernel as far as it keeps the time that deadlines are measured by.  The clock only goes forward, and a wait for a
signal is over without one only after the whole of its timeout.  All else may be answered in any way.

How long anything takes is left open, between two calls as well as during one.  So what is proved in this world are
lower bounds: nothing happens before its time.  When something happens at the latest takes a clock that is told more
about, such as the one of `Steady` or of `Timed`. -/

namespace ContainerInit.Kernel.Clock

open Relation

/-- The times at which a call may be answered that is made at the time `t`. -/
def Answers (t : Nat) : (c : Call) → signature.Answer c → Nat → Prop
  | .monotonic, now, t' => t ≤ now ∧ now ≤ t'
  | .awaitSignal (some timeout), .error .tryAgain, t' => t + timeout ≤ t'
  | _, _, t' => t ≤ t'

/-- The world of all the behaviour of such a kernel. -/
def world : World signature where
  State := Nat
  Drifts t t' := t ≤ t'
  Answers := Answers

variable {t t' : Nat}

/-- The clock does not go back by itself. -/
theorem le_of_drifts (d : ReflTransGen world.Drifts t t') : t ≤ t' :=
  world.of_drifts (P := (t ≤ ·)) Nat.le_trans (Nat.le_refl t) d

/-- Nor does it go back during a call. -/
theorem le_of_answers {c : Call} {a : signature.Answer c} (h : world.Answers t c a t') : t ≤ t' := by
  change Answers t c a t' at h
  unfold Answers at h
  split at h
  · exact Nat.le_trans h.1 h.2
  · exact Nat.le_trans (Nat.le_add_right ..) h
  · exact h

/-- A wait that was to last until the deadline is given up at the deadline or after it. -/
theorem le_of_tryAgain {deadline now : Nat} (hn : now ≤ t)
    (h : world.Answers t (.awaitSignal (some (deadline - now))) (.error .tryAgain) t') : deadline ≤ t' := by
  have h : t + (deadline - now) ≤ t' := h
  omega

end ContainerInit.Kernel.Clock
