import ContainerInit.Kernel.Call
import ContainerInit.Proofs.Dialogue.Action

/-! # Steady clocks

The kernel as far as it keeps its clocks, the one that deadlines are measured by and the one on the wall, which is not
before the epoch.  They go on together.  A look at a clock takes no time, and a wait for a signal is given up when its
timeout is over and not a moment later; all else may take any time and be answered in any way.

Here waits have an upper bound as well as a lower one.  That both clocks go on together is what a wait until the next
minute depends on, which is computed by one clock and kept by the other. -/

namespace ContainerInit.Kernel

/-- What the two clocks show, in nanoseconds. -/
structure Steady where
  monotonic : Nat
  wall : Nat

namespace Steady

/-- The clocks after some time. -/
def after (k : Steady) (nanos : Nat) : Steady := ⟨k.monotonic + nanos, k.wall + nanos⟩

@[simp] theorem after_monotonic (k : Steady) (nanos : Nat) :
    (k.after nanos).monotonic = k.monotonic + nanos := rfl

@[simp] theorem after_wall (k : Steady) (nanos : Nat) : (k.after nanos).wall = k.wall + nanos := rfl

def Answers (k : Steady) : (c : Call) → signature.Answer c → Steady → Prop
  | .monotonic, now, k' => now = k.monotonic ∧ k' = k
  | .wallClock, now, k' => now = (k.wall : Int) ∧ k' = k
  | .awaitSignal (some timeout), answer, k' =>
    ∃ nanos ≤ timeout, k' = k.after nanos ∧ (answer = .error .tryAgain → nanos = timeout)
  | _, _, k' => ∃ nanos, k' = k.after nanos

/-- The world of all the behaviour of such a kernel. -/
def world : World signature := ⟨Steady, fun _ _ => False, Answers⟩

/-- No time passes but for the answer to a call. -/
theorem assures_ask {σ : Type} {asks : Action.Asks world σ} {c : Call} {ends : Action.Ends world σ (signature.Answer c)}
    {n : Nat} {h : Action.History σ} {k : Steady} {s : σ} (hask : asks h k c s)
    (hends : ∀ answer k', k.Answers c answer k' → ends (h ++ [⟨(c, s), answer⟩]) k' (.ok answer) s) :
    Action.Assures world asks (Action.ask c) ends n h k s := Action.assures_ask_of_still (fun _ _ => id) hask hends

end Steady

end ContainerInit.Kernel
