import ContainerInit.Proofs.Registry.Acyclic
import ContainerInit.Proofs.Supervision.Retry
import ContainerInit.Proofs.Supervision.Session

/-! # Operations on a valid registry

What validation has ruled out does not come up later.  The services that a start requires are some of those that depend
on each other in the registry, whatever the states are in which the start finds them.  So a plan for them meets neither
a dependency that does not exist nor a circle, and no operation fails over one.

Nothing else that may go wrong is of any concern here, and `failsOnly` is the regime that says so: anything may happen
but an error of a certain kind.  All errors of the system are admitted, and of those of the configuration it is only the
plan that can bring one up (`plan_cases`). -/

namespace ContainerInit

open Relation

namespace Board

variable {r : Registry} {b : Board r} {i : r.Id} {e : Error}

/-- In a valid registry only a dependency that has ended for good is in the way of a start. -/
theorem Obstacle.exists_blocked (hv : r.validate = .ok ()) (ho : b.Obstacle i e) :
    ∃ service dependency status, e = .dependencyBlocked service dependency status := by
  obtain ⟨hexist, hacyclic⟩ := Registry.validate_eq_ok_iff.mp hv
  cases ho with
  | missing _ hl => exact absurd hl (hexist _ _)
  | circle _ hc => exact absurd (TransGen.mono (fun _ _ => And.left) _ _ hc) (hacyclic _)
  | blocked => exact ⟨_, _, _, rfl⟩

/-- A service of a valid registry can be planned for, unless a dependency has ended for good. -/
theorem plan_cases (hv : r.validate = .ok ()) (b : Board r) (i : r.Id) :
    (∃ is, r.plan b i = .ok is) ∨
      ∃ service dependency status, r.plan b i = .error (.dependencyBlocked service dependency status) := by
  cases hp : r.plan b i with
  | ok is => exact .inl ⟨is, rfl⟩
  | error e =>
    obtain ⟨service, dependency, status, rfl⟩ := (obstacle_of_plan_eq_error hp).exists_blocked hv
    exact .inr ⟨service, dependency, status, rfl⟩

end Board

namespace Supervision

open ContainerInit.Action

variable {r : Registry} {sup : Supervisor}

/-- The error is neither about a dependency that does not exist nor about a circle. -/
def Resolved (e : Error) : Prop := (∀ name, e ≠ .serviceNotFound name) ∧ ∀ chain, e ≠ .dependencyCycle chain

/-- Anything may happen but an error that is not one of `errors`. -/
def failsOnly (errors : Error → Prop) (r : Registry) : Regime (.anything _) (Board r) where
  asks _ _ _ _ := True
  inv _ _ _ := True
  errors := errors

/-- Anything may happen but an error that validation rules out. -/
abbrev resolved (r : Registry) : Regime (.anything _) (Board r) := failsOnly Resolved r

section FailsOnly

variable {errors : Error → Prop}

theorem keeps_failsOnly_ask (c : Kernel.Call) : Keeps (failsOnly errors r) (Action.ask c) :=
  fun _ _ _ _ _ => assures_ask.mpr fun _ _ => ⟨trivial, fun _ _ _ => ⟨trivial, trivial⟩⟩

variable (he : ∀ e, e.isConfig = false → errors e)

include he

theorem admits_failsOnly : Admits (failsOnly errors r) where
  errors e hs _ := he e hs
  ask c _ := keeps_failsOnly_ask c

theorem keeps_failsOnly_checkProcess (i : r.Id) : Keeps (failsOnly errors r) (checkProcess i) :=
  (admits_failsOnly he).checkProcess i (fun p _ _ _ _ _ => keeps_failsOnly_ask (.wait p))
    (fun _ _ => keeps_failsOnly_ask _) fun _ _ _ _ _ => trivial

/-- What fails besides the system are the command lines. -/
theorem endures_failsOnly (sup : Supervisor)
    (hprogram : ∀ (i : r.Id) e, Supervisor.program (r.service i).argv = .error e → errors e) :
    Endures (failsOnly errors r) sup where
  toAdmits := admits_failsOnly he
  terminate _ _ _ _ _ _ _ := keeps_failsOnly_ask _
  checkProcess := keeps_failsOnly_checkProcess he
  stopRequested _ _ _ _ _ _ := trivial
  stopWithdrawn _ _ _ _ _ := trivial
  reapEnded := (admits_failsOnly he).reapEnded fun _ =>
    (admits_failsOnly he).reapOne (fun _ _ => he _ rfl) (keeps_failsOnly_checkProcess he) (keeps_failsOnly_ask _)
  spawned i n h k b hi _ := by
    refine ((admits_failsOnly he).spawn sup (keeps_failsOnly_ask _) (hprogram i) hi).imp fun h k res b hm => ?_
    cases res with
    | ok p => trivial
    | error e => exact hm

end FailsOnly

theorem resolved_of_not_isConfig {e : Error} (he : e.isConfig = false) : Resolved e := by
  constructor
  · rintro name rfl
    cases he
  · rintro chain rfl
    cases he

theorem endures_resolved (sup : Supervisor) : Endures (resolved r) sup :=
  endures_failsOnly (fun _ => resolved_of_not_isConfig) sup fun _ _ he => by
    obtain ⟨_, rfl⟩ := exists_fault_of_program_eq_error he
    exact ⟨nofun, nofun⟩

/-- In a valid registry the plan for a start fails over nothing else either. -/
theorem servesAll_resolved (hv : r.validate = .ok ()) (sup : Supervisor) : ServesAll (resolved r) sup where
  toServesStops := (endures_resolved sup).servesStops
  start := by
    refine keeps_start (fun b i e he => ?_) (endures_resolved sup).spawn
    obtain ⟨_, _, _, rfl⟩ := (Board.obstacle_of_plan_eq_error he).exists_blocked hv
    exact ⟨nofun, nofun⟩
  invalid e he := by
    rw [hv] at he
    cases he
  kill _ _ := keeps_failsOnly_ask _
  awaitSignal _ := keeps_failsOnly_ask _
  collectAll := (endures_resolved sup).collect (keeps_failsOnly_ask _)

/-- Whatever the states of the services are in a valid registry, each of them has a plan for its start or a
dependency that blocks it; and whatever the kernel answers, no operation fails over a dependency that does
not exist or over a circle. -/
theorem carryOut_resolved (hv : r.validate = .ok ()) (sup : Supervisor) (b : Board r) :
    (∀ i, (∃ is, r.plan b i = .ok is) ∨
      ∃ service dependency status, r.plan b i = .error (.dependencyBlocked service dependency status)) ∧
    ∀ (q : Request r) n h e b', Runs (q.carryOut sup) n b h (.error e) b' →
      (∀ name, e ≠ .serviceNotFound name) ∧ ∀ chain, e ≠ .dependencyCycle chain := by
  refine ⟨Board.plan_cases hv b, fun q n h e b' hr => ?_⟩
  have hq := ((servesAll_resolved hv sup).carryOut q (n := n) (h := []) (k := ()) (s := b) trivial).runs hr
  exact hq.2

theorem carryOut_resolved_dependentPair :
    (dependentPair .never).validate = .ok () ∧
      ∃ e, Runs ((Request.start (dependent .never)).carryOut ⟨[]⟩) 0 ⟨#v[⟨.broken, none, 0, false⟩, {}]⟩ []
          (.error e) ⟨#v[⟨.broken, none, 0, false⟩, {}]⟩ ∧
        (∀ name, e ≠ .serviceNotFound name) ∧ ∀ chain, e ≠ .dependencyCycle chain := by
  have hv : (dependentPair .never).validate = .ok () := by cbv
  have hp : (dependentPair .never).plan ⟨#v[⟨.broken, none, 0, false⟩, {}]⟩ (dependent .never) =
      .error (.dependencyBlocked "b" "a" .broken) := by cbv
  have hr : Runs ((Request.start (dependent .never)).carryOut ⟨[]⟩) 0 ⟨#v[⟨.broken, none, 0, false⟩, {}]⟩ []
      (.error (.dependencyBlocked "b" "a" .broken)) ⟨#v[⟨.broken, none, 0, false⟩, {}]⟩ := by
    change Dialogue.Runs ((start ⟨[]⟩ (dependent .never)).dialogue 0 _) _ _
    rw [dialogue_start_of_plan_eq_error hp]
    exact .done _
  exact ⟨hv, _, hr, (carryOut_resolved hv ⟨[]⟩ _).2 _ _ _ _ _ hr⟩

end Supervision

end ContainerInit
