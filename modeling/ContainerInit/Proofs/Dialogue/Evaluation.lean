import ContainerInit.Proofs.Dialogue.Runs
import Mathlib

/-! # Runs by evaluation

A dialogue whose questions are all answered by a function can be evaluated, and what comes out is one of its runs.
This is how a single run is found for a registry of one or two services that are written out, with answers that are
written out as well: the claim that the evaluation ends with such a result is closed by `cbv`, which goes by the
equations of whatever functions it meets on the way.

The searches for dependencies are well-founded recursions, and names are compared as strings, so that `rfl` and
`decide` do not get to the end of such an evaluation.  `cbv` does, but it would make the equations of the functions
of the library here if they were not there yet.  Therefore the library is imported as a whole in this module, and
the modules with runs of that kind import this one. -/

namespace ContainerInit.Dialogue

variable {S : Signature} {α : Type}

/-- The run in which every question is answered by `f`, unless the dialogue is exhausted. -/
def answered (f : (c : S.Call) → S.Answer c) : Dialogue S α → Option (List (Exchange S) × α)
  | .done a => some ([], a)
  | .ask c next => ((next (f c)).answered f).map fun (h, a) => (⟨c, f c⟩ :: h, a)
  | .exhausted => none

/-- What evaluation comes to is the end of a run, with the answers that the function gives. -/
theorem exists_runs_of_answered {f : (c : S.Call) → S.Answer c} {p : Dialogue S α} {a : α}
    (hp : (p.answered f).map Prod.snd = some a) : ∃ h, Runs p h a ∧ ∀ e ∈ h, e.2 = f e.1 := by
  induction p with
  | done a =>
    cases hp
    exact ⟨[], .done _, nofun⟩
  | ask c next ih =>
    rw [answered, Option.map_map] at hp
    obtain ⟨h, hr, hf⟩ := ih (f c) hp
    exact ⟨⟨c, f c⟩ :: h, .ask hr, List.forall_mem_cons.mpr ⟨rfl, hf⟩⟩
  | exhausted => cases hp

end ContainerInit.Dialogue
