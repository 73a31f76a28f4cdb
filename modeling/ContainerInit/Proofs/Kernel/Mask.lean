import ContainerInit.Kernel.Call
import ContainerInit.Proofs.Dialogue.Action

/-! # The signal mask

The kernel as far as it keeps the signal mask of the supervisor.  The mask changes by nothing but the call for it,
which leaves `SIGKILL` and `SIGSTOP` out without an error, and changes nothing where it fails.  All else may be
answered in any way.

A call for the mask is answered with the mask that was in force.  Whoever is going to restore it has to remember that
answer, and what is restored is exactly what was there (`of_signals`), since a mask in force never has the two signals
in it that are left out. -/

namespace ContainerInit.Kernel

/-- A signal mask that may be in force. -/
@[ext] structure Mask where
  signals : SignalSet
  kill_not_mem : Signal.kill ∉ signals
  stop_not_mem : Signal.stop ∉ signals

namespace Mask

/-- The mask that comes into force where a set of signals is to be blocked. -/
def of (signals : SignalSet) : Mask where
  signals := signals.filter fun s => s ≠ Signal.kill && s ≠ Signal.stop
  kill_not_mem := by simp
  stop_not_mem := by simp

/-- A mask that was in force comes into force again as it was. -/
@[simp] theorem of_signals (k : Mask) : of k.signals = k := by
  have hkept : ∀ s ∈ k.signals, (s ≠ Signal.kill && s ≠ Signal.stop) = true := by
    intro s hs
    have hkill : s ≠ Signal.kill := fun e => k.kill_not_mem (e ▸ hs)
    have hstop : s ≠ Signal.stop := fun e => k.stop_not_mem (e ▸ hs)
    simp [hkill, hstop]
  exact Mask.ext (List.filter_eq_self.mpr hkept)

/-- No mask blocks everything. -/
theorem signals_ne_all (k : Mask) : k.signals ≠ Signal.all :=
  fun e => k.kill_not_mem (e ▸ by decide)

def Answers (k : Mask) : (c : Call) → signature.Answer c → Mask → Prop
  | .setMask signals, .ok old, k' => old = k.signals ∧ k' = of signals
  | _, _, k' => k' = k

/-- The world of all the behaviour of such a kernel. -/
def world : World signature := ⟨Mask, fun _ _ => False, Answers⟩

/-- The mask is the same before the answer to a call as after the one before. -/
theorem assures_ask {σ : Type} {c : Call} {ends : Action.Ends world σ (signature.Answer c)} {n : Nat}
    {h : Action.History σ} {k : Mask} {s : σ}
    (hends : ∀ answer k', k.Answers c answer k' → ends (h ++ [⟨(c, s), answer⟩]) k' (.ok answer) s) :
    Action.Assures world (fun _ _ _ _ => True) (Action.ask c) ends n h k s :=
  Action.assures_ask_of_still (fun _ _ => id) trivial hends

end Mask

end ContainerInit.Kernel
