import ContainerInit.Registry.Graph
import ContainerInit.Supervision.Supervisor

/-! # Starting and stopping a service

The operations on one service of a registry. They act on the board of service states; a service leaves the running
state only in `checkProcess`.

To start a service is to carry out a plan. The plan is made at once, from the board as it is, and has everything in it
that has to run first; so a start that is refused has done nothing. After that the services of the plan are forked one
by one, and the first that cannot be forked ends it.

To stop a service takes three steps. Its process is looked at first, since there may be none any more. Then the request
is noted and the signal sent. And last, the process is waited for, and the request withdrawn if it is still there when
the time is up. Whether an end counts as a stop depends on the request alone. -/

namespace ContainerInit.Supervision

variable {r : Registry}

/-- Actions on the states of the services of a registry. -/
abbrev Operation (r : Registry) := Action (Board r)

def logService (level : Log.Level) (text : String) : Operation r Unit :=
  Action.log level "cronit::service::unit" text

def stateOf (i : r.Id) : Operation r Service.State := return (← get)[i]

def update (i : r.Id) (f : Service.State → Service.State) : Operation r Unit :=
  modify fun b => b.set i (f b[i])

/-- Starts a process for the service if it has none. -/
def spawn (sup : Supervisor) (i : r.Id) : Operation r Unit := do
  let s := r.service i
  match (← stateOf i).pid with
  | some pid =>
    logService .info ("Service '" ++ s.name ++ "' is already running (pid " ++ toString pid ++ ").")
  | none =>
    match ← Action.attempt (sup.spawn s.argv) with
    | .ok pid =>
      update i (·.started pid)
      logService .info
        ("Service '" ++ s.name ++ "' started (pid " ++ toString pid ++ "): " ++ s.commandLine)
    | .error e =>
      update i (·.failed)
      logService .error ("Failed to start service '" ++ s.name ++ "': " ++ e.message)
      throw e

/-- Starts the dependencies of a service, then the service itself. Everything is planned before the
first process is started. -/
def start (sup : Supervisor) (i : r.Id) : Operation r Unit := do
  let plan ← Action.ofExcept (Registry.plan (← get) i)
  plan.forM (spawn sup)

/-- The exit code by the last status collected from the process of a service. One that was lost counts
as the end by a signal. -/
def finalCode (i : r.Id) (pid : Pid) (status : Option WaitStatus) : Operation r Int := do
  match status.bind (·.exitCode?) with
  | some code => return code
  | none =>
    logService .warn
      ("Exit status of service '" ++ (r.service i).name ++ "' (pid " ++ toString pid ++ ") was lost.")
    return WaitStatus.signaledCode

/-- Notes that the process of a service has ended. -/
def recordEnd (i : r.Id) (pid : Pid) (code : Int) : Operation r Unit := do
  update i (·.ended code)
  logService .info ("Service '" ++ (r.service i).name ++ "' (pid " ++ toString pid ++
    ") exited with code " ++ toString code ++ ", now " ++ (← stateOf i).status.name ++ ".")

/-- Collects the process of the service if it has ended; answers whether it is still running. -/
def checkProcess (i : r.Id) : Operation r Bool := do
  match (← stateOf i).pid with
  | none => return false
  | some pid =>
    let collected ← Supervisor.collect pid
    if !collected.gone then return true
    recordEnd i pid (← finalCode i pid collected.status)
    return false

/-- Asks the process of the service to end; answers whether there was a process to ask. -/
def requestStop (i : r.Id) : Operation r Bool := do
  let name := (r.service i).name
  if !(← checkProcess i) then return false
  match (← stateOf i).pid with
  | none => return false
  | some pid =>
    logService .info ("Stopping service '" ++ name ++ "' (pid " ++ toString pid ++ ").")
    update i ({ · with stopRequested := true })
    if !(← Supervisor.send pid .terminate) then
      logService .debug ("Process " ++ toString pid ++ " of service '" ++ name ++ "' is already gone.")
    return true

/-- Waits for the process of a service that was asked to end; answers whether it is gone. -/
def awaitStopped (i : r.Id) (deadline : Nat) : Operation r Bool := do
  match (← stateOf i).pid with
  | none => return true
  | some pid =>
    let _ ← Supervisor.awaitExit pid (some deadline)
    if ← checkProcess i then
      logService .warn ("Service '" ++ (r.service i).name ++ "' (pid " ++ toString pid ++
        ") did not stop in time.")
      update i ({ · with stopRequested := false })
      return false
    else return true

def stop (i : r.Id) (deadline : Nat) : Operation r Bool := do
  if ← requestStop i then awaitStopped i deadline else return true

end ContainerInit.Supervision
