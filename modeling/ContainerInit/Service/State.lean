import ContainerInit.Kernel.WaitStatus
import ContainerInit.Service.Policy

/-! # Service states

The state of a service over time. `State.started` and `State.ended` are the two ways in which a process comes and goes;
a process is present exactly while the status says running.

The status alone does not tell everything. Of a service that has ended it is the exit code that decides about a restart
on failure, and whether the service has been asked to stop decides about the status that it ends with. A start that has
failed leaves the exit code as it was, so that the policy decides by the last process there was. -/

namespace ContainerInit.Service

inductive Status where
  | notStarted
  | running
  /-- The last process ended after a stop request. -/
  | stopped
  /-- The last process ended by itself, or could not be started. -/
  | broken
deriving DecidableEq, Repr

namespace Status

def name : Status → String
  | .notStarted => "not-started"
  | .running => "running"
  | .stopped => "stopped"
  | .broken => "broken"

/-- The status as it appears inside other values. -/
def shown : Status → String
  | .notStarted => "NotStarted"
  | .running => "Running"
  | .stopped => "Stopped"
  | .broken => "Broken"

end Status

structure State where
  status : Status := .notStarted
  pid : Option Pid := none
  exitCode : Int := 0
  stopRequested : Bool := false
deriving DecidableEq, Repr

namespace State

def isRunning (s : State) : Bool := s.pid.isSome

/-- Whether the policy allows starting the service again. -/
def canRestart (s : State) (p : RestartPolicy) : Bool :=
  !s.isRunning && match p with
    | .never => false
    | .always => true
    | .onFailure => s.exitCode ≠ 0
    | .unlessStopped => s.status ≠ .stopped

/-- A dependency in this state keeps its dependents from starting: its process ended and the policy
does not allow another one. -/
def isBlocked (s : State) (p : RestartPolicy) : Bool :=
  (s.status = .stopped || s.status = .broken) && !s.canRestart p

/-- A new process has been started. -/
def started (s : State) (pid : Pid) : State :=
  { s with status := .running, pid := some pid, stopRequested := false }

/-- No process could be started. -/
def failed (s : State) : State := { s with status := .broken }

/-- The process has been collected. -/
def ended (s : State) (exitCode : Int) : State :=
  { status := if s.stopRequested then .stopped else .broken, pid := none, exitCode, stopRequested := false }

end State

end ContainerInit.Service
