import ContainerInit.Service.State

/-! # Sound states

The fields of a state depend on each other.  Each way in which a state is replaced by another keeps them sound.

A service runs exactly if it has a process; that it has been asked to stop goes with a process, too; and before its
first start nothing has been recorded.  The state is a record of four fields in which none of this is enforced, and so
it has to be shown for each of the replacements: a start, a failure, an end, a request to stop, and its withdrawal. -/

namespace ContainerInit.Service.State

/-- The fields of the state agree. -/
structure Sound (s : State) : Prop where
  running_iff : s.status = .running ↔ s.pid.isSome
  stopRequested : s.stopRequested = true → s.pid.isSome
  notStarted : s.status = .notStarted → s.exitCode = 0 ∧ s.pid = none

variable {s : State}

theorem sound_default : Sound {} := ⟨by simp, by simp, fun _ => ⟨rfl, rfl⟩⟩

theorem sound_started (s : State) (p : Pid) : (s.started p).Sound := ⟨by simp [started], nofun, nofun⟩

theorem sound_failed (h : s.Sound) (hp : s.pid = none) : s.failed.Sound :=
  ⟨by simp [failed, hp], h.stopRequested, nofun⟩

theorem sound_ended (s : State) (code : Int) : (s.ended code).Sound := by
  cases hr : s.stopRequested <;> exact ⟨by simp [ended, hr], nofun, by simp [ended, hr]⟩

theorem sound_stopRequested (h : s.Sound) (hp : s.pid.isSome) :
    Sound { s with stopRequested := true } := ⟨h.running_iff, fun _ => hp, h.notStarted⟩

theorem sound_stopWithdrawn (h : s.Sound) : Sound { s with stopRequested := false } :=
  ⟨h.running_iff, nofun, h.notStarted⟩

theorem status_ended_ne (s : State) (code : Int) : (s.ended code).status ≠ .notStarted := by
  cases hr : s.stopRequested <;> simp [ended, hr]

/-! ## States after a process that could not be started -/

/-- The policy does not hold the failed attempt against the service. -/
theorem canRestart_failed {p : RestartPolicy} (h : s.canRestart p = true) : s.failed.canRestart p = true := by
  cases p with
  | never => simp [canRestart] at h
  | always => exact h
  | onFailure => exact h
  | unlessStopped =>
    obtain ⟨hp, -⟩ := Bool.and_eq_true_iff.mp h
    exact Bool.and_eq_true_iff.mpr ⟨hp, rfl⟩

/-- No other start is allowed if the policy is never to restart, or only after a failure that the exit code
does not show. -/
theorem isBlocked_failed_iff {p : RestartPolicy} (h : s.pid = none) :
    s.failed.isBlocked p = true ↔ p = .never ∨ p = .onFailure ∧ s.exitCode = 0 := by
  cases p <;> simp [isBlocked, canRestart, isRunning, failed, h]

end ContainerInit.Service.State
