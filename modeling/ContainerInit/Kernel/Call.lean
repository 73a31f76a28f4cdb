import ContainerInit.Kernel.Dialogue
import ContainerInit.Kernel.Errno
import ContainerInit.Log.Sink

/-! # System calls

What the supervisor asks of the kernel, and what a freshly forked child asks before its program takes over. Times are in
nanoseconds; targets of waits and kills are a process, `-1` for every process, `0` for the own group and a negative
number for the group of that magnitude.

The answers are those of the calls as the program sees them. A call that may fail answers with an error number, and a
wait that finds children of which none has ended answers that one is still alive. Nothing is said here about which
answers there may be: that is up to whoever gives them, be it the system, a simulated machine or one of the worlds. -/

namespace ContainerInit.Kernel

/-- A child to be forked: the command line to run, and the signal mask it starts with. -/
structure Child where
  argv : List String
  mask : SignalSet
deriving DecidableEq, Repr

/-- A signal taken from the pending ones, with the process that sent it. -/
structure SignalInfo where
  signal : Signal
  sender : Pid
deriving DecidableEq, Repr

inductive Call where
  /-- Initializes the log of the process for a program. -/
  | initLog (ident : String) (threshold : Log.Threshold) (targets : List Log.Target)
  /-- Writes a record to the log of the process. -/
  | log (r : Log.Record)
  /-- The clock that deadlines are measured by. -/
  | monotonic
  | wallClock
  | processId
  | sleep (nanos : Nat)
  | fork (child : Child)
  /-- Collects an ended child if there is one, without waiting. -/
  | wait (target : Pid)
  /-- Looks for an ended child and leaves it. -/
  | peek (target : Pid)
  | kill (target : Pid) (signal : Signal)
  /-- Takes the next pending signal, for at most the given time. -/
  | awaitSignal (timeout : Option Nat)
  /-- Replaces the signal mask, answering the one before. -/
  | setMask (mask : SignalSet)
  /-- Has the notice of an unexpected signal written when the signal arrives. -/
  | trapSignal (signal : Signal)
  | changeDirectory (path : String)
  | readFile (path : String)
  /-- Looks for a variable of the environment. -/
  | environment (name : String)
deriving Repr

abbrev signature : Signature where
  Call := Call
  Answer
    | .initLog .. | .log _ | .sleep _ => Unit
    | .monotonic => Nat
    | .wallClock => Int
    | .processId => Pid
    | .fork _ => Except Errno Pid
    | .wait _ | .peek _ => Except Errno WaitStatus
    | .kill _ _ | .trapSignal _ | .changeDirectory _ => Except Errno Unit
    | .awaitSignal _ => Except Errno SignalInfo
    | .setMask _ => Except Errno SignalSet
    | .readFile _ => Except Errno ByteArray
    | .environment _ => Option String

namespace Child

inductive Call where
  | log (r : Log.Record)
  | defaultSignal (signal : Signal)
  | setMask (mask : SignalSet)
  /-- Runs the program instead of what is running; an answer without an error means that it does. -/
  | exec (argv : List String)
deriving Repr

abbrev signature : Signature where
  Call := Call
  Answer
    | .log _ => Unit
    | .defaultSignal _ | .setMask _ | .exec _ => Except Errno Unit

end Child

end ContainerInit.Kernel
