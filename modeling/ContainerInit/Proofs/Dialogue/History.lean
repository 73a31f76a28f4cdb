import ContainerInit.Proofs.Dialogue.Action

/-! # Records and the last call

What a history shows last, records of the log apart, and histories of nothing else.

A service manager writes to the log at many places, and a record is a call like any other.  That a loop has just
found nothing more to collect, say, is a statement about its last call, and should not depend on whether something
has been written since. -/

namespace ContainerInit.Action

variable {σ : Type} {h : History σ} {s : σ}

/-- Whether the call does nothing but write to the log. -/
def isLog : Kernel.Call → Bool
  | .log _ => true
  | _ => false

theorem isLog_eq_true_iff {c : Kernel.Call} : isLog c = true ↔ ∃ l, c = .log l := by
  cases c <;> simp [isLog]

theorem isLog_eq_false_iff {c : Kernel.Call} : isLog c = false ↔ ∀ l, c ≠ .log l := by
  cases c <;> simp [isLog]

/-- The last call of a history other than those to the log, with the state that it was made from and its
answer. -/
def lastCall (h : History σ) : Option (Dialogue.Exchange (Kernel.signature.inState σ)) :=
  (h.filter fun e => !isLog e.1.1).getLast?

@[simp] theorem lastCall_append_log {l : Log.Record} {u : Unit} :
    lastCall (h ++ [⟨(.log l, s), u⟩]) = lastCall h := by simp [lastCall, isLog]

theorem lastCall_append {c : Kernel.Call} {a : Kernel.signature.Answer c} (hc : isLog c = false) :
    lastCall (h ++ [⟨(c, s), a⟩]) = some ⟨(c, s), a⟩ := by simp [lastCall, hc]

/-- Nothing but records of the log. -/
def RecordsOnly (h : History σ) : Prop := ∀ e ∈ h, isLog e.1.1 = true

theorem recordsOnly_nil : RecordsOnly ([] : History σ) := nofun

theorem recordsOnly_log {l : Log.Record} {u : Unit} : RecordsOnly [⟨(.log l, s), u⟩] :=
  List.forall_mem_singleton.mpr rfl

end ContainerInit.Action
