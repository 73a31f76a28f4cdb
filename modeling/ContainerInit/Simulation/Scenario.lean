import ContainerInit.Kernel.WaitStatus
import ContainerInit.Simulation.Files

/-! # Scenarios

What a simulated system is made of: how processes behave, which signals arrive from outside, and which
calls fail. Times are in nanoseconds from the start of the simulation, durations likewise. -/

namespace ContainerInit.Simulation

/-- What a process does when it is asked to end. -/
inductive Response where
  | obey
  | ignore
  | exitAfter (delay : Nat) (code : Int)
deriving DecidableEq, Repr

/-- How a process behaves. -/
inductive Behaviour where
  /-- The process ends by itself after `lifetime` if that is given, by the signal `signal` if that is
  given and with the code `code` otherwise. It ends `killDelay` after a kill. It belongs to the group
  `group`, or to that of the supervisor. At its end the processes `orphans` come to exist. A program of
  this behaviour cannot be run if `execErrno` is an error. -/
  | mk (lifetime : Option Nat) (code : Int) (signal : Option Nat) (response : Response)
      (killDelay : Nat) (group : Option Pid) (orphans : List Behaviour) (execErrno : Int)
deriving Repr

namespace Behaviour

def lifetime : Behaviour → Option Nat | mk l _ _ _ _ _ _ _ => l
def code : Behaviour → Int | mk _ c _ _ _ _ _ _ => c
def signal : Behaviour → Option Nat | mk _ _ s _ _ _ _ _ => s
def response : Behaviour → Response | mk _ _ _ r _ _ _ _ => r
def killDelay : Behaviour → Nat | mk _ _ _ _ k _ _ _ => k
def group : Behaviour → Option Pid | mk _ _ _ _ _ g _ _ => g
def orphans : Behaviour → List Behaviour | mk _ _ _ _ _ _ os _ => os
def execErrno : Behaviour → Int | mk _ _ _ _ _ _ _ e => e

/-- A process that exits with `code` after `lifetime` and knows nothing else. -/
def exiting (lifetime : Nat) (code : Int) : Behaviour := mk (some lifetime) code none .obey 0 none [] 0

mutual

/-- The number of processes that a behaviour gives rise to, itself included. -/
def size : Behaviour → Nat
  | mk _ _ _ _ _ _ os _ => 1 + sizeAll os

def sizeAll : List Behaviour → Nat
  | [] => 0
  | b :: bs => size b + sizeAll bs

end

end Behaviour

/-- A signal from outside. -/
structure Arrival where
  time : Nat
  signal : Signal
  sender : Pid
deriving DecidableEq, Repr

/-- The calls that can be made to fail. -/
inductive CallKind where
  | fork | waitpid | waitid | kill | sigwait | sigmask | sigaction | chdir | connect | send
deriving DecidableEq, Repr

def CallKind.parse? : String → Option CallKind
  | "fork" => some .fork
  | "waitpid" => some .waitpid
  | "waitid" => some .waitid
  | "kill" => some .kill
  | "sigwait" => some .sigwait
  | "sigmask" => some .sigmask
  | "sigaction" => some .sigaction
  | "chdir" => some .chdir
  | "connect" => some .connect
  | "send" => some .send
  | _ => none

/-- The calls of a kind from the `first` on, `times` of them, fail with an error number. -/
structure Fault where
  kind : CallKind
  first : Nat := 1
  times : Nat := 1
  errno : Int := 22
deriving DecidableEq, Repr

structure Scenario where
  /-- The process number of the supervisor, which is also its group. -/
  pid : Pid := 1
  /-- The wall clock at the start, in nanoseconds since the epoch. -/
  epoch : Int := 1709251170000000000
  /-- No signal is waited for beyond this time. -/
  horizon : Nat := 600000000000
  nextPid : Pid := 100
  /-- The signals blocked at the start. -/
  mask : SignalSet := []
  arrivals : List Arrival := []
  /-- The children that exist from the start. -/
  orphans : List Behaviour := []
  /-- What the programs do: the behaviour of their first start, of their second, and so on; the last
  one holds for all later starts. -/
  programs : List (String × List Behaviour) := []
  faults : List Fault := []
  /-- The system log accepts connections. -/
  syslog : Bool := false
  files : Files := []
  environment : List (String × String) := []
deriving Repr

end ContainerInit.Simulation
