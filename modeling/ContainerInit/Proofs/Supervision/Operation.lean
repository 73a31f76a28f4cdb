import ContainerInit.Proofs.Dialogue.Action
import ContainerInit.Proofs.Registry.Board
import ContainerInit.Supervision.Service

/-! # What operations assure

The rules for the two ways in which an operation touches its board. -/

namespace ContainerInit.Supervision

open ContainerInit.Action

variable {r : Registry} {W : World Kernel.signature} {asks : Asks W (Board r)} {n : Nat}
  {h : History (Board r)} {k : W.State} {b : Board r} {i : r.Id}

theorem assures_stateOf {ends : Ends W (Board r) Service.State} :
    Assures W asks (stateOf i) ends n h k b ↔ ends h k (.ok b[i]) b := .rfl

theorem assures_update {f : Service.State → Service.State} {ends : Ends W (Board r) Unit} :
    Assures W asks (update i f) ends n h k b ↔ ends h k (.ok ()) (b.set i (f b[i])) := .rfl

end ContainerInit.Supervision
