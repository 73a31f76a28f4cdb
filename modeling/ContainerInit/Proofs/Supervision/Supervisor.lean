import ContainerInit.Proofs.Dialogue.Regime
import ContainerInit.Supervision.Supervisor

/-! # What the supervisor keeps

The dealings with the kernel keep every regime that admits their calls and errors.

Most calls of a supervisor are routine: a look at a child or at a clock, a pause, a record.  They change nothing that any
of the invariants is about, and `Admits` says so once for each regime.  The records are among them but for one, which
tells of an exit status that has been lost, since whether that is ever written is a question of its own. -/

namespace ContainerInit.Supervision

open ContainerInit.Action

/-- The record of an exit status that was lost. -/
def lossRecord (name : String) (pid : Pid) : Log.Record :=
  ⟨.warn, "cronit::service::unit",
    "Exit status of service '" ++ name ++ "' (pid " ++ toString pid ++ ") was lost."⟩

/-- The calls that neither make, collect nor signal a child nor have to do with pending signals, and do not
say that something was lost. -/
def Routine : Kernel.Call → Prop
  | .fork _ | .wait _ | .kill .. | .awaitSignal _ | .setMask _ => False
  | .log l => ∀ name pid, l ≠ lossRecord name pid
  | _ => True

theorem routine_log_of_level {l : Log.Level} {source text : String} (h : l ≠ .warn) :
    Routine (.log ⟨l, source, text⟩) := fun _ _ e => h (congrArg Log.Record.level e)

theorem routine_log_of_source {l : Log.Level} {source text : String} (h : source ≠ "cronit::service::unit") :
    Routine (.log ⟨l, source, text⟩) := fun _ _ e => h (congrArg Log.Record.source e)

/-- A command line without a program is at fault itself. -/
theorem exists_fault_of_program_eq_error {argv : List String} {e : Error}
    (h : Supervisor.program argv = .error e) : ∃ fault, e = .invalidCommand fault := by
  cases argv with
  | nil => exact ⟨_, (Except.error.inj h).symm⟩
  | cons command args =>
    rw [Supervisor.program] at h
    split at h
    · exact ⟨_, (Except.error.inj h).symm⟩
    · cases h

variable {σ : Type} {W : World Kernel.signature} {R : Regime W σ}

/-- The regime admits all routine calls, and all errors of the system but that of a process which should be
gone. -/
structure Admits (R : Regime W σ) : Prop where
  errors : ∀ e, e.isConfig = false → (∀ name pid, e ≠ .stillOwned name pid) → R.errors e
  ask : ∀ c, Routine c → Keeps R (ask c)

namespace Admits

variable (hR : Admits R)

include hR

theorem logSupervisor (l : Log.Level) (text : String) : Keeps R (Supervisor.log l text) :=
  hR.ask _ (routine_log_of_source (by decide))

/-- A look is a routine call. -/
theorem peek (target : Pid) : Keeps R (Supervisor.peek target) := by
  refine .repeatUntil ((hR.ask (.peek target) trivial).bind fun answer => ?_)
  cases answer with
  | ok status => exact keeps_pure _
  | error e =>
    refine .ite (fun _ => keeps_pure _) fun _ => .ite (fun _ => keeps_pure _) fun _ => ?_
    exact keeps_throw (hR.errors _ rfl nofun)

theorem awaitExit (target : Pid) (deadline : Option Nat) : Keeps R (Supervisor.awaitExit target deadline) := by
  refine .repeatUntil ((hR.peek target).bind fun state => ?_)
  split
  · refine (hR.ask .monotonic trivial).bind fun now => .ite (fun _ => keeps_pure _) fun _ => ?_
    exact (hR.ask (.sleep _) trivial).bind fun _ => keeps_pure _
  · exact keeps_pure _

/-- Waits have to be admitted, and are repeated after interruptions. -/
theorem collect {target : Pid} (hwait : Keeps R (Action.ask (.wait target))) :
    Keeps R (Supervisor.collect target) := by
  refine .iterate (fun last => hwait.bind fun answer => ?_) none
  split
  · exact keeps_pure _
  · exact (hR.logSupervisor _ _).bind fun _ => .ite (fun _ => keeps_pure _) fun _ => keeps_pure _
  · refine .ite (fun _ => keeps_pure _) fun _ => .ite (fun _ => keeps_pure _) fun _ => ?_
    exact keeps_throw (hR.errors _ rfl nofun)

/-- A fork has to be admitted. -/
theorem spawn (sup : Supervisor) {argv : List String}
    (hfork : Keeps R (Action.ask (.fork ⟨argv, sup.savedMask⟩)))
    (hprogram : ∀ e, Supervisor.program argv = .error e → R.errors e) : Keeps R (sup.spawn argv) := by
  refine (keeps_ofExcept hprogram).bind fun command => hfork.bind fun answer => ?_
  cases answer with
  | ok p => exact (hR.logSupervisor _ _).bind fun _ => keeps_pure _
  | error e => exact keeps_throw (hR.errors _ rfl nofun)

/-- A signal has to be admitted. -/
theorem send {target : Pid} {s : Signal} (hkill : Keeps R (Action.ask (.kill target s))) :
    Keeps R (Supervisor.send target s) := by
  refine hkill.bind fun answer => ?_
  cases answer with
  | ok _ => exact keeps_pure _
  | error e => exact .ite (fun _ => keeps_pure _) fun _ => keeps_throw (hR.errors _ rfl nofun)

theorem timeLeft (deadline : Option Nat) : Keeps R (Supervisor.timeLeft deadline) := by
  cases deadline with
  | none => exact keeps_pure _
  | some d => exact (hR.ask .monotonic trivial).bind fun _ => keeps_pure _

/-- A wait for a signal has to be admitted, and is repeated after interruptions. -/
theorem awaitSignal (hawait : ∀ timeout, Keeps R (Action.ask (.awaitSignal timeout)))
    (deadline : Option Nat) : Keeps R (Supervisor.awaitSignal deadline) := by
  refine .repeatUntil ((hR.timeLeft deadline).bind fun timeout => (hawait timeout).bind fun answer => ?_)
  cases answer with
  | ok info => exact keeps_pure _
  | error e =>
    refine .ite (fun _ => keeps_pure _) fun _ => .ite (fun _ => keeps_pure _) fun _ => ?_
    exact keeps_throw (hR.errors _ rfl nofun)

end Admits

end ContainerInit.Supervision
