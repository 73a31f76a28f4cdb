import ContainerInit.CommandLine.Program
import ContainerInit.Proofs.Config.Registration
import ContainerInit.Proofs.Dialogue.Runs
import ContainerInit.Proofs.Dialogue.Triple

/-! # Services registered by the program

The program talks about each service that it adds, and comes to the registry that adding alone comes to.

Adding a service is a function on registries.  The program does the same in an action over a registry of its own, which
says to the log what it does, and runs it within an action over another state (`Action.isolated`).  The lemmas of this
module take the two apart again: a run of the isolated action comes from a run of the action itself
(`Runs.of_isolated`), and what that leads to is the fold of `Registry.add` (`eq_foldlM_of_runs_register`).

For a configuration that has been accepted there is not much left that can go wrong: its names are distinct, and no
command is empty.  So either all services are registered, or one has a schedule that cannot be read. -/

namespace ContainerInit

namespace Dialogue

variable {S : Signature} {σ τ α : Type} {s : σ} {p : Dialogue (S.inState τ) α}

/-- What is asked from another state is asked in the same order, and ends with the same value. -/
theorem Runs.of_askedFrom {h : List (Exchange (S.inState σ))} {a : α} (hr : Runs (p.askedFrom s) h a) :
    ∃ h', Runs p h' a := by
  induction p generalizing h with
  | done b =>
    cases hr
    exact ⟨[], .done _⟩
  | ask q next ih =>
    cases hr with
    | ask rest =>
      obtain ⟨h', hr⟩ := ih _ rest
      exact ⟨_, .ask hr⟩
  | exhausted => cases hr

/-- Asking from another state does not keep a dialogue from ending. -/
theorem Halts.askedFrom (hp : p.Halts) (s : σ) : (p.askedFrom s).Halts := by
  induction p with
  | done a => trivial
  | ask q next ih => exact fun r => ih r (hp r)
  | exhausted => exact hp

end Dialogue

namespace Action

variable {σ τ α : Type} {x : Action τ α} {n : Nat} {s s' : σ} {h : History σ}

/-- An action over a state of its own asks everything from the state outside, which stays as it is. -/
theorem isolated_dialogue (x : Action τ α) (t : τ) (n : Nat) (s : σ) :
    (isolated x t : Action σ (Except Error α × τ)).dialogue n s =
      ((x.dialogue n t).askedFrom s >>= fun a => .done (.ok a, s)) :=
  dialogue_ofDialogue ((x.dialogue n t).askedFrom s) n s

/-- A run of an isolated action is one of the action, with the result as a value. -/
theorem Runs.of_isolated {t : τ} {res : Except Error (Except Error α × τ)}
    (hr : Runs (isolated x t : Action σ _) n s h res s') : ∃ h' out t', Runs x n t h' out t' ∧ res = .ok (out, t') := by
  unfold Runs at hr
  rw [isolated_dialogue, Dialogue.runs_bind_iff] at hr
  obtain ⟨h₁, _, ⟨out, t'⟩, -, hx, hend⟩ := hr
  cases hend
  obtain ⟨h', hx⟩ := hx.of_askedFrom
  exact ⟨h', out, t', hx, rfl⟩

/-- An action that comes to an end does so where it is isolated. -/
theorem Halts.isolated (hx : Halts x) (t : τ) : Halts (isolated x t : Action σ (Except Error α × τ)) := by
  intro n s
  rw [isolated_dialogue]
  exact ((hx n t).askedFrom s).bind fun _ => trivial

end Action

open ContainerInit.Action

namespace Supervision

variable {n : Nat} {r r' : Registry} {h : History Registry} {res : Except Error Unit} {ds : List Service.Definition}

/-- Adding a service with an announcement does what adding it does. -/
theorem add_eq_of_runs {d : Service.Definition} (hr : Runs (addService d) n r h res r') :
    r.add d = res.map fun _ => r' := by
  unfold addService at hr
  rcases runs_bind_iff.mp hr with ⟨_, _, _, _, -, hget, hrest⟩ | ⟨_, -, hget⟩
  · obtain ⟨-, hvalue, hstate⟩ := runs_get_iff.mp hget
    rw [Except.ok.inj hvalue, hstate] at hrest
    cases hadd : r.add d with
    | error e =>
      rw [hadd] at hrest
      obtain ⟨-, rfl, -⟩ := runs_throw_iff.mp hrest
      rfl
    | ok r₁ =>
      rw [hadd] at hrest
      obtain ⟨_, -, hset⟩ := runs_log_bind_iff.mp hrest
      cases hset
      rfl
  · obtain ⟨-, he, -⟩ := runs_get_iff.mp hget
    cases he

theorem halts_addService (d : Service.Definition) : Halts (addService d) := by
  refine halts_get.bind fun r => ?_
  cases r.add d with
  | error e => exact halts_throw e
  | ok r' => exact (halts_ask _).bind fun _ _ _ => trivial

/-- One service after the other is added, up to the first that cannot be. -/
theorem foldlM_add_eq_of_runs (hr : Runs (ds.forM addService) n r h res r') :
    ds.foldlM Registry.add r = res.map fun _ => r' := by
  induction ds generalizing r h with
  | nil =>
    obtain ⟨-, rfl, rfl⟩ := runs_pure_iff.mp hr
    rfl
  | cons d ds ih =>
    rw [List.foldlM_cons]
    rcases runs_bind_iff.mp hr with ⟨_, _, _, r₁, -, hadd, hrest⟩ | ⟨e, rfl, hadd⟩
    · rw [add_eq_of_runs hadd]
      exact ih hrest
    · rw [add_eq_of_runs hadd]
      rfl

end Supervision

namespace CommandLine

variable {σ : Type} {n : Nat} {s s' : σ} {h : History σ} {res : Except Error Registry} {ds : List Service.Definition}

theorem halts_register (ds : List Service.Definition) : Halts (register ds : Action σ Registry) :=
  ((halts_forM ds Supervision.halts_addService).isolated Registry.empty).bind fun _ =>
    (halts_ofExcept _).bind fun _ => halts_pure _

/-- The program comes to the registry that adding alone comes to, or to the same error. -/
theorem eq_foldlM_of_runs_register (hr : Runs (register ds) n s h res s') :
    res = ds.foldlM Registry.add Registry.empty := by
  rcases runs_bind_iff.mp hr with ⟨_, _, _, _, -, hadd, hrest⟩ | ⟨_, -, hadd⟩
  · obtain ⟨_, out, r, hforM, hv⟩ := hadd.of_isolated
    cases hv
    rw [Supervision.foldlM_add_eq_of_runs hforM]
    obtain ⟨_, hout, rfl⟩ := runs_bind_pure_iff.mp hrest
    obtain ⟨-, rfl, -⟩ := runs_ofExcept_iff.mp hout
    rfl
  · obtain ⟨_, _, _, -, hv⟩ := hadd.of_isolated
    cases hv

/-- Of a configuration that has been accepted the program makes a registry, unless a schedule cannot be read; then it
reports the first such one. -/
theorem runs_register_of_accepted {env : Settings.Environment} {c : Config} (hc : c.Accepted env)
    (hr : Runs (register c.services) n s h res s') :
    (∃ r, res = .ok r) ∨ ∃ d fault, FailsFirst (fun d => Cron.Schedule.parse d.schedule) c.services d fault ∧
      res = .error (.invalidService d.name (.invalidSchedule fault)) := by
  rw [eq_foldlM_of_runs_register hr]
  exact hc.addsUp

end CommandLine

end ContainerInit
