import ContainerInit.Proofs.Dialogue.Completion
import ContainerInit.Proofs.Supervision.Ownership

/-! # The check of a process

A service is checked by collecting its process.  In whatever world: if that succeeds, so does the check, and it records
what has been collected.

The worlds differ in what a wait may find, and so the wait itself is left to them (`succeeds_checkProcess`).  What is
shared is the way from there to the board, on which nothing is written to the log that a world would have to take
notice of. -/

namespace ContainerInit

/-- The state of a service whose process has been looked for, and how that was found to have ended. -/
def Service.State.checked (s : State) (found : Option Kernel.Termination) : State :=
  found.elim s (s.ended ·.code)

namespace Supervision

open ContainerInit.Action Kernel

variable {W : World signature} {r : Registry} {n : Nat} {k : W.State} {b : Board r} {i : r.Id} {p : Pid}

theorem succeeds_stateOf {Q : W.State → Service.State → Board r → Prop} (h : Q k b[i] b) :
    Succeeds W (stateOf i) Q n k b := ⟨_, rfl, h⟩

theorem succeeds_update {f : Service.State → Service.State} {Q : W.State → Unit → Board r → Prop}
    (h : Q k () (b.set i (f b[i]))) : Succeeds W (update i f) Q n k b := ⟨_, rfl, h⟩

theorem succeeds_reported {x : Operation r Bool} {Q : W.State → Option Bool → Board r → Prop}
    (hx : Succeeds W x (fun k answer b => Q k (some answer) b) n k b) : Succeeds W (reported i x) Q n k b :=
  succeeds_bind.mpr (Succeeds.attempt (hx.imp fun _ _ _ h => succeeds_pure h))

/-- The end is recorded, and then written to the log. -/
theorem succeeds_recordEnd {code : Int} {Q : W.State → Unit → Board r → Prop} (hl : Logs W (·.level ≠ .warn))
    (h : Q k () (b.set i (b[i].ended code))) : Succeeds W (recordEnd i p code) Q n k b := by
  refine succeeds_bind.mpr (succeeds_update (succeeds_bind.mpr (succeeds_stateOf ?_)))
  exact hl.succeeds nofun h

/-- Where there is no process, there is nothing to check. -/
theorem succeeds_checkProcess_of_none {Q : W.State → Bool → Board r → Prop} (hi : b[i].pid = none)
    (h : Q k false b) : Succeeds W (checkProcess i) Q n k b := by
  refine succeeds_bind.mpr (succeeds_stateOf ?_)
  rw [hi]
  exact succeeds_pure h

/-- What has been found is recorded, and the answer is whether the process is still there. -/
theorem succeeds_checkProcess (found : Option Termination) {P : W.State → Prop} (hl : Logs W (·.level ≠ .warn))
    (hi : b[i].pid = some p) (hc : Succeeds W (Supervisor.collect p) (fun k' c b' => b' = b ∧
      c = ⟨found.isSome, found.map (·.status p)⟩ ∧ P k') n k b) :
    Succeeds W (checkProcess i) (fun k' running b' => running = found.isNone ∧
      b' = b.set i (b[i].checked found) ∧ P k') n k b := by
  refine succeeds_bind.mpr (succeeds_stateOf ?_)
  rw [hi]
  refine hc.bind ?_
  rintro k' _ _ ⟨rfl, rfl, hk⟩
  cases found with
  | none => exact succeeds_pure ⟨rfl, (Board.set_self _ i).symm, hk⟩
  | some t =>
    simp only [Option.map_some, finalCode_status]
    refine succeeds_bind.mpr (succeeds_pure ?_)
    exact succeeds_bind.mpr (succeeds_recordEnd hl (succeeds_pure ⟨rfl, rfl, hk⟩))

end Supervision

end ContainerInit
