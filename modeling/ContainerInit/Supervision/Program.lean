import ContainerInit.Calendar.Clock
import ContainerInit.Config.Settings
import ContainerInit.Supervision.Registry

/-! # The program

The life of the init process: it starts the boot services, waits for signals, restarts and starts services until it is
told to end or nothing is left to do, and shuts everything down.

## The loop

A round of the loop checks the schedule for the minutes that have gone by, unless no service waits for times of day, and
then waits for one signal, until the next minute or for as long as it takes. On `SIGCHLD` children are collected, and
services restarted that may be. Four signals end the loop, and so does a sweep after which no service runs, where there
was no child before it and nothing is scheduled.

## The shutdown

The shutdown has one deadline for everything. Until then services are stopped in an orderly way, and after that whoever
is left is asked to end, and killed once a wait for a signal has found none. The outcome is graceful if all services
were stopped in time and nobody had to be killed. -/

namespace ContainerInit.Supervision

/-- What the program is run with, besides its services. -/
structure Plan where
  settings : Settings
  /-- Who is signalled in the forceful part of the shutdown; `-1` is every process. -/
  killTarget : Pid := -1
deriving DecidableEq, Repr

/-- Why the loop ended. -/
inductive LoopExit where
  | signaled (s : Signal)
  | idle
deriving DecidableEq, Repr

inductive Outcome where
  /-- Every process ended when asked to. -/
  | graceful
  /-- Processes had to be killed, or services did not end in time. -/
  | forced
deriving DecidableEq, Repr

namespace Outcome

def exitCode : Outcome → Nat
  | .graceful => 0
  | .forced => 1

def name : Outcome → String
  | .graceful => "Graceful"
  | .forced => "Forced"

end Outcome

variable {r : Registry} {σ : Type}

def logProgram (level : Log.Level) (text : String) : Action σ Unit := Action.log level "cronit::program" text

/-- Fails unless the process is the first one of its system. -/
def ensureInit : Action σ Unit := do
  let pid : Pid ← Action.ask .processId
  if pid ≠ 1 then throw (.notInit pid)

def logSignal (info : Kernel.SignalInfo) : Action σ Unit :=
  logProgram .debug ("Signal received: " ++ Signal.nameOf info.signal ++ " (from pid " ++
    toString info.sender ++ ").")

def changeDirectory (path : String) : Action σ Unit := do
  logProgram .debug ("Changing working directory to " ++ Text.quote path)
  if path.contains '\x00' then throw (.system .invalid)
  let result : Except Errno Unit ← Action.ask (.changeDirectory path)
  if let .error e := result then throw (.system e)

/-- Enters the working directory and starts the boot services of a valid registry. -/
def bootstrap (sup : Supervisor) (p : Plan) : Operation r Unit := do
  if let some path := p.settings.workdir then changeDirectory path
  Action.ofExcept r.validate
  bootServices sup

/-- The minute that the wall clock shows. -/
def currentMinute : Action σ Calendar.Instant := do
  let now : Int ← Action.ask .wallClock
  return .ofEpochNanos now

/-- Starts what is due in the minutes after `last` up to now; answers the last minute checked. -/
def checkElapsed (sup : Supervisor) (last : Calendar.Instant) : Operation r Calendar.Instant := do
  let now ← currentMinute
  if now.order last ≠ .gt then return last
  let started ← checkSchedule sup last.next now
  if !started.isEmpty then
    logProgram .info ("Scheduled services started at " ++ now.text ++ ": " ++ Text.quoteList started)
  return now

/-- The start of the next minute on the clock that deadlines are measured by. -/
def nextMinute : Action σ Nat := do
  let now : Nat ← Action.ask .monotonic
  let wall : Int ← Action.ask .wallClock
  return now + Calendar.untilNextMinute wall

/-- The signals that end the program. -/
def terminating : SignalSet := [Signal.hangup, Signal.interrupt, Signal.quit, Signal.terminate]

/-- Acts on a signal that has arrived; answers how the loop ends if it does. -/
def handleSignal (sup : Supervisor) (info : Kernel.SignalInfo) : Operation r (Option LoopExit) := do
  logSignal info
  if info.signal ∈ terminating then return some (.signaled info.signal)
  else if info.signal = .child then
    if (← reap sup true) && !r.hasTimed then return some .idle
    return none
  else
    logProgram .debug ("Ignoring signal " ++ Signal.nameOf info.signal ++ ".")
    return none

/-- Waits for a signal until the deadline and acts on it; the loop goes on with `last`. -/
def awaitEvent (sup : Supervisor) (last : Calendar.Instant) (deadline : Option Nat) :
    Operation r (Action.Round Calendar.Instant LoopExit) := do
  match ← Supervisor.awaitSignal deadline with
  | none => return .again last
  | some info =>
    match ← handleSignal sup info with
    | none => return .again last
    | some exit => return .finish exit

/-- One round of the loop, after the minutes up to `last` have been checked. -/
def loopOnce (sup : Supervisor) (last : Calendar.Instant) :
    Operation r (Action.Round Calendar.Instant LoopExit) := do
  if r.hasTimed then
    let last ← checkElapsed sup last
    awaitEvent sup last (some (← nextMinute))
  else awaitEvent sup last none

/-- Waits for signals until one ends the program or nothing is left to supervise. -/
def mainLoop (sup : Supervisor) : Operation r LoopExit := do
  Action.iterate (loopOnce sup) (← currentMinute)

/-- Waits until no service runs; answers whether that was so before the deadline. -/
def awaitServices (deadline : Nat) : Operation r Bool := Action.repeatUntil do
  if !(← get).anyRunning then return some true
  match ← Supervisor.awaitSignal (some deadline) with
  | none =>
    logProgram .warn "Timed out stopping services."
    return some false
  | some info =>
    logSignal info
    if info.signal = .child then
      let _ ← reapEnded
    return none

/-- Stops all services; answers whether that was done before the deadline. -/
def stopServices (deadline : Nat) : Operation r Bool := do
  logProgram .debug "Stopping all services."
  if ← stopAll deadline then return true
  logProgram .debug "Waiting for services to stop."
  awaitServices deadline

/-- The pause after a kill before the next one. -/
def residualWait : Nat := 1000000

/-- One round of ending what is left, where processes are killed at the deadline. The flag says
whether that has happened; the answer is the flag in the end. -/
def killOnce (target : Pid) : Nat × Bool → Operation r (Action.Round (Nat × Bool) Bool)
  | (deadline, killed) => do
    match ← Supervisor.awaitSignal (some deadline) with
    | none =>
      logProgram .warn "Killing remaining processes."
      if !(← Supervisor.send target .kill) then
        logProgram .debug "No process left to kill."
        return .finish killed
      if ← reapEnded then return .finish true
      let now : Nat ← Action.ask .monotonic
      return .again (now + residualWait, true)
    | some info =>
      logSignal info
      if info.signal = .child then
        if ← reapEnded then return .finish killed
      return .again (deadline, killed)

/-- Ends every process that is left; answers whether anything had to be killed. -/
def endProcesses (target : Pid) (deadline : Nat) : Operation r Bool := do
  logProgram .debug "Terminating remaining processes."
  if !(← Supervisor.send target .terminate) then
    logProgram .debug "No process left to terminate."
    return false
  Action.iterate (killOnce target) (deadline, false)

/-- Stops the services, ends or kills what is left, and collects it, within the time of the settings. -/
def shutdown (p : Plan) : Operation r Outcome := do
  let now : Nat ← Action.ask .monotonic
  let deadline := now + p.settings.shutdownTimeout * Calendar.nanosPerSecond
  let graceful ← stopServices deadline
  let killed ← endProcesses p.killTarget deadline
  let collected ← Supervisor.collect (-1)
  if let some status := collected.status then
    logProgram .debug ("Collected remaining process: " ++ status.shown)
  return if graceful && !killed then .graceful else .forced

/-- The whole life of the program. -/
def run (sup : Supervisor) (p : Plan) : Operation r Outcome := do
  let pid : Pid ← Action.ask .processId
  logProgram .info ("Starting (pid " ++ toString pid ++ ").")
  bootstrap sup p
  match ← mainLoop sup with
  | .signaled s => logProgram .info ("Terminating on " ++ Signal.nameOf s ++ ".")
  | .idle => logProgram .info "Nothing left to supervise."
  let outcome ← shutdown p
  logProgram .info ("Exiting (" ++ outcome.name ++ " shutdown).")
  return outcome

end ContainerInit.Supervision
