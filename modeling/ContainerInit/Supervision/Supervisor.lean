import ContainerInit.Kernel.Action

/-! # The supervisor

The one holder of the signal mask, through which processes are started, collected, signalled and waited for. Every
signal is blocked while there is a supervisor, and taken from the pending ones.

A supervisor is created by `Supervisor.acquire`, which fails if there is one already, and given up by
`Supervisor.release`. All that it keeps is the mask from before; children are forked with that mask, so that nothing
of the supervisor shows in them.

## Dealings with children

There are two ways to look for a child that has ended. A wait collects what it finds, and a look leaves it; both can
be about one process, a group or all children. `Supervisor.collect` waits until the target itself has been collected
or a wait finds nobody who has ended, and remembers the last status only. Interrupted calls are made again, the absence
of a child is an answer, and any other error is passed on.

## Time

A wait for a signal or for a child may have a deadline on the monotonic clock. What is left until then is worked out
anew before each call, so that a call that has to be made again does not extend it. -/

namespace ContainerInit

structure Supervisor where
  /-- The signal mask from before the supervisor. -/
  savedMask : SignalSet
deriving DecidableEq, Repr

namespace Supervisor

/-- Whether a supervisor exists. -/
structure Slot where
  taken : Bool := false
deriving DecidableEq, Repr

variable {σ : Type}

def log (level : Log.Level) (text : String) : Action σ Unit := Action.log level "cronit::supervisor" text

/-- Gives the signal mask back and makes room for another supervisor. -/
def release (sup : Supervisor) : Action Slot Unit := do
  let r : Except Errno SignalSet ← Action.ask (.setMask sup.savedMask)
  if let .error e := r then
    log .warn ("Failed to restore the signal mask: " ++ (CallFault.errno e).message)
  set { taken := false : Slot }

def trapSignal (s : Signal) : Action σ Unit := do
  let r : Except Errno Unit ← Action.ask (.trapSignal s)
  if let .error e := r then throw (.callFailed (.errno e))

/-- Creates the supervisor: blocks every signal, and has those that cannot be blocked reported. -/
def acquire : Action Slot Supervisor := do
  if (← get).taken then throw .alreadyInitialized
  set { taken := true : Slot }
  let r : Except Errno SignalSet ← Action.ask (.setMask Signal.all)
  match r with
  | .error e =>
    set { taken := false : Slot }
    throw (.callFailed (.errno e))
  | .ok savedMask =>
    let sup : Supervisor := ⟨savedMask⟩
    match ← Action.attempt (Signal.catchable.forM trapSignal) with
    | .error e =>
      sup.release
      throw e
    | .ok () =>
      log .debug "All signals are blocked, waiting on them synchronously."
      return sup

/-- The program to be run by a command line. -/
def program : List String → Except Error String
  | [] => .error (.invalidCommand .empty)
  | command :: args => match (command :: args).find? (·.contains '\x00') with
    | some a => .error (.invalidCommand (.nulByte a))
    | none => .ok command

/-- Forks a child that runs the command line. -/
def spawn (sup : Supervisor) (argv : List String) : Action σ Pid := do
  let command ← Action.ofExcept (program argv)
  let r : Except Errno Pid ← Action.ask (.fork ⟨argv, sup.savedMask⟩)
  match r with
  | .error e => throw (.spawnFailed command e)
  | .ok pid =>
    log .debug ("Spawned '" ++ command ++ "' as pid " ++ toString pid ++ ".")
    return pid

/-- What collecting ended children has found. -/
structure Collected where
  /-- The target has no member left that lives or waits to be collected. -/
  gone : Bool
  /-- The last status collected. -/
  status : Option WaitStatus
deriving DecidableEq, Repr

/-- One call to collect a child of `target`, after `last` was collected. -/
def collectOnce (target : Pid) (last : Option WaitStatus) :
    Action σ (Action.Round (Option WaitStatus) Collected) := do
  let r : Except Errno WaitStatus ← Action.ask (.wait target)
  match r with
  | .ok .stillAlive => return .finish ⟨false, last⟩
  | .ok status =>
    log .debug ("Reaped process " ++ shownOption Pid.shown status.pid? ++ ": " ++ status.shown)
    if status.pid? = some target then return .finish ⟨true, some status⟩
    else return .again (some status)
  | .error e =>
    if e = .noChild then return .finish ⟨true, last⟩
    else if e = .interrupted then return .again last
    else throw (.system e)

/-- Collects ended children of `target` until the target itself is collected or nothing is left to
collect. -/
def collect (target : Pid) : Action σ Collected := Action.iterate (collectOnce target) none

/-- What there is among the children of a target. -/
inductive ChildState where
  | exited (pid : Pid)
  | running
  | noChildren
deriving DecidableEq, Repr

/-- Looks for an ended child of `target` without collecting it. -/
def peek (target : Pid) : Action σ ChildState := Action.repeatUntil do
  let r : Except Errno WaitStatus ← Action.ask (.peek target)
  match r with
  | .ok status => return some (status.pid?.elim .running .exited)
  | .error e =>
    if e = .noChild then return some .noChildren
    else if e = .interrupted then return none
    else throw (.system e)

/-- The pause between two looks at a child that should end. -/
def pollInterval : Nat := 10000000

/-- Looks for an ended child of `target`; with a deadline, until there is one or time is up. -/
def awaitExit (target : Pid) (deadline : Option Nat) : Action σ ChildState := Action.repeatUntil do
  let state ← peek target
  match deadline, state with
  | some d, .running =>
    let now : Nat ← Action.ask .monotonic
    if d ≤ now then return some state
    let _ : Unit ← Action.ask (.sleep (min pollInterval (d - now)))
    return none
  | _, _ => return some state

/-- Sends a signal; answers whether there was anyone to receive it. -/
def send (target : Pid) (s : Signal) : Action σ Bool := do
  let r : Except Errno Unit ← Action.ask (.kill target s)
  match r with
  | .ok () => return true
  | .error e => if e.IsGone then return false else throw (.system e)

/-- The time that is left until the deadline. -/
def timeLeft : Option Nat → Action σ (Option Nat)
  | none => return none
  | some deadline => do
    let now : Nat ← Action.ask .monotonic
    return some (deadline - now)

/-- One call for the next pending signal: the signal, or none if there was none in time. Answers nothing
where the call has to be made again. -/
def takeSignal (timeout : Option Nat) : Action σ (Option (Option Kernel.SignalInfo)) := do
  let r : Except Errno Kernel.SignalInfo ← Action.ask (.awaitSignal timeout)
  match r with
  | .ok info => return some (some info)
  | .error e =>
    if e = .tryAgain then return some none
    else if e = .interrupted then return none
    else throw (.callFailed (.syscall "sigtimedwait" (-1) e))

/-- Takes the next pending signal; none if the deadline comes first. -/
def awaitSignal (deadline : Option Nat) : Action σ (Option Kernel.SignalInfo) :=
  Action.repeatUntil do takeSignal (← timeLeft deadline)

end Supervisor

end ContainerInit
