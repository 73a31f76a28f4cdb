import ContainerInit.Supervision.Service
import ContainerInit.Text.Quoted

/-! # Operations on a whole registry

Starts at boot and by schedule, the restart sweep, stopping all services, and collecting whatever children have ended.

What these have in common is that they go through the services in the order of their names, or of their dependencies,
and what they do about one is not undone by what happens to the next. They differ in how they take failures. A boot
ends with the first one. A scheduled start and a restart pass over a failure that leaves everything in order, such as
a fork that has failed or a dependency that is in the way, and end with any other. Stopping passes over all of them,
and its answer tells that something has failed.

Children are collected one by one, each by a look that finds one and a wait for that one. A child that belongs to a
service has its end recorded there, and any other child is an orphan. -/

namespace ContainerInit.Supervision

variable {r : Registry}

def logRegistry (level : Log.Level) (text : String) : Operation r Unit :=
  Action.log level "cronit::registry" text

/-- Adds a service to the registry. -/
def addService (d : Service.Definition) : Action Registry Unit := do
  match (← get).add d with
  | .error e => throw e
  | .ok r =>
    Action.log .debug "cronit::registry" ("Added service '" ++ d.name ++ "'.")
    set r

/-- Starts every service that starts with the system. -/
def bootServices (sup : Supervisor) : Operation r Unit :=
  (r.ids.filter fun i => (r.service i).schedule.onBoot).forM fun i => do
    logRegistry .debug ("Bootstrapping service '" ++ (r.service i).name ++ "'.")
    start sup i

/-- The services that are due in the minute `t`, other than those in `passed`. -/
def dueAt (r : Registry) (passed : List r.Id) (t : Calendar.Instant) : List r.Id :=
  r.ids.filter fun i => !passed.contains i && (r.service i).schedule.isDue t

/-- The services due in one of the `n` minutes from `t` on, each with its first minute, in the order
of those minutes and then of names. -/
def firstDue (r : Registry) : Nat → Calendar.Instant → List r.Id → List (r.Id × Calendar.Instant)
  | 0, _, _ => []
  | n + 1, t, passed =>
    let due := dueAt r passed t
    due.map (·, t) ++ firstDue r n t.next (passed ++ due)

/-- The number of minutes from `first` to `last`, both included. -/
def windowSize (first last : Calendar.Instant) : Nat := (last.minutes - first.minutes + 1).toNat

/-- Starts a service whose time has come; answers whether that worked. -/
def startDue (sup : Supervisor) (i : r.Id) : Operation r Bool := do
  match ← Action.attempt (start sup i) with
  | .ok () => return true
  | .error e =>
    if !e.isRecoverable then throw e
    logRegistry .error
      ("Scheduled start of '" ++ (r.service i).name ++ "' failed: " ++ e.message)
    return false

/-- Starts each service that is due in a minute from `first` to `last`, once; answers the names of
those that were started. -/
def checkSchedule (sup : Supervisor) (first last : Calendar.Instant) : Operation r (List String) := do
  let due := firstDue r (windowSize first last) first []
  due.forM fun (i, t) =>
    logRegistry .debug ("Service '" ++ (r.service i).name ++ "' is scheduled at " ++ t.text ++ ".")
  let started ← due.filterM fun (i, _) => startDue sup i
  return started.map fun (i, _) => (r.service i).name

/-- Carries out a part of stopping a service; a failure is reported and answers nothing. -/
def reported (i : r.Id) (x : Operation r Bool) : Operation r (Option Bool) := do
  match ← Action.attempt x with
  | .ok b => return some b
  | .error e =>
    logRegistry .warn ("Failed to stop service '" ++ (r.service i).name ++ "': " ++ e.message)
    return none

/-- Asks all services to end, dependents before their dependencies, then waits for each of them until
the deadline. Answers whether all of them are gone; failures are reported and passed over. -/
def stopAll (deadline : Nat) : Operation r Bool := do
  let asked ← r.startOrder.reverse.mapM fun i => return (i, ← reported i (requestStop i))
  let stopping := asked.filter fun (_, answer) => answer = some true
  let waited ← stopping.mapM fun (i, _) => reported i (awaitStopped i deadline)
  return asked.all (fun (_, answer) => answer.isSome) && waited.all (· = some true)

/-- Starts a service again if it has ended and may be; answers whether it is running then. Services
that never ran are left to boot or schedule. -/
def checkService (sup : Supervisor) (i : r.Id) : Operation r Bool := do
  let s := r.service i
  let state ← stateOf i
  if state.isRunning then return true
  if state.status = .notStarted || !state.canRestart s.restart then return false
  logRegistry .info ("Restarting service '" ++ s.name ++ "' (policy " ++ s.restart.name ++
    ", last exit code " ++ toString state.exitCode ++ ").")
  match ← Action.attempt (start sup i) with
  | .ok () => return (← stateOf i).isRunning
  | .error e =>
    if !e.isRecoverable then throw e
    logRegistry .error ("Failed to restart service '" ++ s.name ++ "': " ++ e.message)
    return false

/-- The restart sweep over all services; answers whether each was found or brought to run. -/
def checkAll (sup : Supervisor) : Operation r Bool := do
  return (← r.ids.mapM (checkService sup)).all id

/-- Collects one ended child: the process of a service, or an orphan. -/
def reapOne (pid : Pid) : Operation r Unit := do
  match (← get).owner? pid with
  | some i => if ← checkProcess i then throw (.stillOwned (r.service i).name pid)
  | none =>
    let collected ← Supervisor.collect pid
    logRegistry .debug
      ("Reaped orphan process " ++ toString pid ++ ": " ++ shownOption WaitStatus.shown collected.status)

/-- Collects ended children until there are none; answers whether there is no child at all. -/
def reapEnded : Operation r Bool := Action.repeatUntil do
  match ← Supervisor.awaitExit (-1) none with
  | .noChildren => return some true
  | .running => return some false
  | .exited pid =>
    reapOne pid
    return none

/-- Collects ended children, then runs the restart sweep if asked to. Answers whether no child was
left, and no service runs after the sweep. -/
def reap (sup : Supervisor) (restart : Bool) : Operation r Bool := do
  let noChildren ← reapEnded
  if restart then
    let _ ← checkAll sup
    if (← get).anyRunning then return false
  return noChildren

end ContainerInit.Supervision
