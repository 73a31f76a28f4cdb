import ContainerInit.Log.State
import ContainerInit.Simulation.Scenario

/-! # The simulated machine

The state of a simulated system and the passage of time in it. Time stands still but for sleeps and waits; when it moves,
signals arrive and processes end, each at its own time.

A machine is deterministic. What is going to happen is settled by the scenario and by the calls so far: each process has
a time at which it will end, if it ever does, and a signal to it may bring that forward. `Machine.step?` lets the next of
these events happen if it is due, and `Machine.advance` all that are due up to some time. Their number is bounded, since
each uses up a signal or a process, although a process may leave others behind. -/

namespace ContainerInit.Simulation

/-- How a process ends. -/
inductive Ending where
  | exit (code : Nat)
  | signal (s : Nat)
deriving DecidableEq, Repr

structure Process where
  pid : Pid
  group : Pid
  behaviour : Behaviour
  /-- When and how the process will end, as things stand. -/
  planned : Option (Nat × Ending)
  /-- How the process has ended, while it waits to be collected. -/
  ended : Option Ending := none
deriving Repr

/-- What an observer of the system gets to see. -/
inductive Event where
  | fork (pid : Pid)
  | exec (argv : List String) (mask : SignalSet) (handlers : Nat) (errno : Int)
  | reap (pid : Pid) (ending : Ending)
  | kill (target : Pid) (signal : Signal) (errno : Int)
  | chdir (path : String) (errno : Int)
  | errorLine (line : String)
  | syslog (datagram : String)
deriving DecidableEq, Repr

/-- What a child has a copy of, so that its changes are lost to its parent. -/
structure Context where
  mask : SignalSet
  /-- The signals whose disposition is not the default one. -/
  handlers : SignalSet := []
  /-- How many calls of each kind have been made so far. -/
  calls : List (CallKind × Nat) := []
  log : Log.State := {}
deriving Repr

structure Machine where
  scenario : Scenario
  clock : Nat := 0
  /-- The signals still to come, in the order in which they were announced. -/
  arrivals : List Arrival
  /-- The children not yet collected, in the order of their creation. -/
  children : List Process := []
  nextPid : Pid
  /-- The signals that wait to be taken, with their senders. -/
  pending : List (Signal × Pid) := []
  context : Context
  forks : Nat := 0
  /-- The programs run so far. -/
  starts : List String := []
  /-- Latest first. -/
  events : List Event := []
deriving Repr

abbrev Sim := StateM Machine

namespace Machine

def observe (m : Machine) (e : Event) : Machine := { m with events := e :: m.events }

/-- A signal becomes pending, unless it is already. -/
def post (m : Machine) (s : Signal) (sender : Pid) : Machine :=
  if m.pending.any (·.1 = s) then m else { m with pending := m.pending ++ [(s, sender)] }

/-- A process comes to exist. -/
def create (m : Machine) (b : Behaviour) : Machine :=
  let ending : Ending := b.signal.elim (.exit (b.code % 256).toNat) .signal
  let p : Process :=
    { pid := m.nextPid, group := b.group.getD m.scenario.pid, behaviour := b,
      planned := b.lifetime.map fun l => (m.clock + l, ending) }
  { m with children := m.children ++ [p], nextPid := m.nextPid + 1 }

def start (s : Scenario) : Machine :=
  s.orphans.foldl create
    { scenario := s, arrivals := s.arrivals, nextPid := s.nextPid, context := { mask := s.mask } }

/-- A process ends: it waits to be collected, leaves its orphans behind, and the supervisor is told. -/
def finish (m : Machine) (pid : Pid) (e : Ending) : Machine :=
  let orphans := (m.children.find? (·.pid = pid)).elim [] (·.behaviour.orphans)
  let children := m.children.map fun p =>
    if p.pid = pid then { p with planned := none, ended := some e } else p
  let m := { m with children }
  (orphans.foldl create m).post .child pid

/-- The earliest signal still to come. -/
def nextArrival? (m : Machine) : Option Arrival :=
  m.arrivals.foldl (fun best a => match best with
    | some b => if a.time < b.time then some a else best
    | none => some a) none

/-- The process that ends next, with time and manner. -/
def nextEnding? (m : Machine) : Option (Nat × Pid × Ending) :=
  m.children.foldl (fun best p => match p.planned, best with
    | none, _ => best
    | some (t, e), none => some (t, p.pid, e)
    | some (t, e), some (t', _) => if t < t' then some (t, p.pid, e) else best) none

/-- The time of the next event. -/
def nextTime? (m : Machine) : Option Nat :=
  match m.nextArrival?, m.nextEnding? with
  | none, e => e.map (·.1)
  | some a, none => some a.time
  | some a, some (t, _) => some (min a.time t)

/-- The next event happens if it is due at `time`; signals go before endings. The clock shows the time
of the event then, unless it is later already. -/
def step? (m : Machine) (time : Nat) : Option Machine :=
  let arrive (a : Arrival) : Option Machine :=
    if a.time ≤ time then
      some (({ m with clock := max m.clock a.time, arrivals := m.arrivals.erase a }).post a.signal a.sender)
    else none
  let endProcess (t : Nat) (p : Pid) (e : Ending) : Option Machine :=
    if t ≤ time then some (({ m with clock := max m.clock t }).finish p e) else none
  match m.nextArrival?, m.nextEnding? with
  | none, none => none
  | some a, none => arrive a
  | none, some (t, p, e) => endProcess t p e
  | some a, some (t, p, e) => if a.time ≤ t then arrive a else endProcess t p e

/-- A bound on the events to come: each of them uses up a signal or a process. -/
def eventsToCome (m : Machine) : Nat :=
  m.arrivals.length +
    Behaviour.sizeAll ((m.children.filter (·.ended.isNone)).map (·.behaviour))

/-- At most `n` events up to `time`. -/
def steps (time : Nat) : Nat → Machine → Machine
  | 0, m => m
  | n + 1, m => match m.step? time with
    | none => m
    | some m => steps time n m

/-- Time passes up to `time`. -/
def advance (m : Machine) (time : Nat) : Machine :=
  let m := steps time m.eventsToCome m
  { m with clock := max m.clock time }

/-- What is due happens. -/
def settle (m : Machine) : Machine := m.advance m.clock

/-- Adds one to the number of a kind. -/
def bump (k : CallKind) : List (CallKind × Nat) → List (CallKind × Nat)
  | [] => [(k, 1)]
  | (l, n) :: rest => if l = k then (l, n + 1) :: rest else (l, n) :: bump k rest

/-- Counts a call of the kind, and answers the error it is to fail with if any. -/
def fault? (k : CallKind) : Sim (Option Int) := do
  let m ← get
  let calls := bump k m.context.calls
  let n := (calls.lookup k).getD 0
  set { m with context := { m.context with calls } }
  return (m.scenario.faults.find? fun f => f.kind = k && f.first ≤ n && n < f.first + f.times).map (·.errno)

/-- The children that a target selects. -/
def Selects (m : Machine) (target : Pid) (p : Process) : Prop :=
  if target > 0 then p.pid = target
  else if target = -1 then True
  else if target = 0 then p.group = m.scenario.pid
  else p.group = -target

instance (m : Machine) (target : Pid) (p : Process) : Decidable (m.Selects target p) := by
  unfold Selects; infer_instance

def selected (m : Machine) (target : Pid) : List Process := m.children.filter fun p => m.Selects target p

/-- The signals that a process takes no notice of. -/
def unnoticed : SignalSet := [0, 17, 18, 19, 20, 21, 22, 23, 28]

/-- A process is to end at a time, unless it ends before that or at that time anyway. -/
def planEnd (t : Nat) (e : Ending) (p : Process) : Process :=
  match p.planned with
  | some (t', _) => if t < t' then { p with planned := some (t, e) } else p
  | none => { p with planned := some (t, e) }

/-- A signal reaches a child. -/
def deliver (s : Signal) (m : Machine) (pid : Pid) : Machine :=
  match m.children.find? (·.pid = pid) with
  | none => m
  | some p =>
    if p.ended.isSome || unnoticed.contains s then m
    else
      let plan (delay : Nat) (e : Ending) : Machine :=
        { m with children := m.children.map fun q =>
            if q.pid = pid then planEnd (m.clock + delay) e q else q }
      if s = .kill then
        if p.behaviour.killDelay = 0 then m.finish pid (.signal s) else plan p.behaviour.killDelay (.signal s)
      else match p.behaviour.response with
        | .obey => m.finish pid (.signal s)
        | .ignore => m
        | .exitAfter delay code => plan delay (.exit (code % 256).toNat)

/-- The signals that can be waited for, lowest first, of those that are pending. -/
def nextPending? (m : Machine) : Option (Signal × Pid) :=
  Signal.all.findSome? fun s => m.pending.find? (·.1 = s)

/-- The behaviour of a program at its next start. -/
def behaviour? (m : Machine) (program : String) : Option Behaviour :=
  (m.scenario.programs.find? (·.1 = program)).bind fun (_, bs) =>
    bs[min (m.starts.count program) (bs.length - 1)]?

end Machine

end ContainerInit.Simulation
