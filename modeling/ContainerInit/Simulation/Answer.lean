import ContainerInit.Simulation.Machine
import ContainerInit.Supervision.Child

/-! # The answers of the simulated machine

What each call does to a simulated machine, and what it answers.

A call that concerns processes or signals first lets happen what is due. Then the scenario may have it fail, in which
case nothing else is done; the calls of each kind are counted for that. A fork runs the child up to the start of its
program, with a copy of all that a process has for itself, and what the program does from there on is looked up in the
scenario.

A wait reports how a child has ended, and cannot do so for a signal without a name. It fails then, with the child
collected nevertheless, where a look fails and leaves it. -/

namespace ContainerInit.Simulation

namespace Machine

/-- A text written to the error output, which shows it line by line. -/
def writeError (m : Machine) (line : String) : Machine :=
  (line.splitOn "\n").foldl (fun m l => m.observe (.errorLine l)) m

def wallClock (m : Machine) : Int := m.scenario.epoch + m.clock

end Machine

open Machine

/-- A call that either fails as the scenario has it or does what it does. -/
def unlessFault {α : Type} (k : CallKind) (x : Sim (Except Errno α)) : Sim (Except Errno α) := do
  match ← fault? k with
  | some e => return .error (.ofCode e)
  | none => x

def answerLog : (c : Log.Call) → Sim (Log.signature.Answer c)
  | .wallClock => return (← get).wallClock
  | .processId => return (← get).scenario.pid
  | .connect => do
    match ← fault? .connect with
    | some e => return .error e
    | none => return if (← get).scenario.syslog then .ok () else .error 2
  | .send datagram => do
    match ← fault? .send with
    | some e => return .error e
    | none =>
      modify (·.observe (.syslog datagram))
      return .ok ()
  | .writeLine line => modify (·.writeError line)

/-- Runs something that changes the log of the process. -/
def withLog (f : Log.State → Log.Talk Log.State) : Sim Unit := do
  if let some log ← (f (← get).context.log).interpret answerLog then
    modify fun m => { m with context := { m.context with log } }

def setMask (mask : SignalSet) : Sim (Except Errno SignalSet) := unlessFault .sigmask do
  let m ← get
  set { m with context := { m.context with mask } }
  return .ok m.context.mask

def setHandler (s : Signal) (installed : Bool) : Sim (Except Errno Unit) := unlessFault .sigaction do
  modify fun m =>
    let others := m.context.handlers.filter (· ≠ s)
    { m with context := { m.context with handlers := if installed then s :: others else others } }
  return .ok ()

/-- A program starts in a child: the behaviour of the process from here on, unless it cannot run. -/
def exec (argv : List String) : Sim (Except Errno Behaviour) := do
  let m ← get
  let program := argv.headD ""
  let found := m.behaviour? program
  let errno : Int := found.elim Errno.noEntry.code (·.execErrno)
  let handlers := m.context.handlers.length
  set ({ m with starts := if found.isSome then program :: m.starts else m.starts }.observe
    (.exec argv m.context.mask handlers errno))
  return match found with
    | some b => if errno = 0 then .ok b else .error (.ofCode errno)
    | none => .error .noEntry

/-- The answers to a child. The program that it runs is kept beside the machine. -/
def answerChild : (c : Kernel.Child.Call) → StateT (Option Behaviour) Sim (Kernel.Child.signature.Answer c)
  | .log r => (withLog (·.emit r) : Sim Unit)
  | .defaultSignal s => (setHandler s false : Sim _)
  | .setMask mask => do return (← (setMask mask : Sim _)).map fun _ => ()
  | .exec argv => do
    match ← (exec argv : Sim _) with
    | .ok b =>
      set (some b)
      return .ok ()
    | .error e => return .error e

/-- How long a child lives whose program cannot be run. -/
def failedLifetime : Nat := 5000000

/-- A child runs until its program has started or it has given up; what becomes of it is answered. -/
def runChild (c : Kernel.Child) : Sim Behaviour := do
  let context := (← get).context
  let (code, behaviour) ← (c.run.interpret answerChild).run none
  modify fun m => { m with context }
  return match behaviour with
    | some b => b
    | none => .exiting failedLifetime ((code.bind id).getD Kernel.Child.notExecuted)

/-- The number of forks that the system allows. -/
def maxForks : Nat := 64

def fork (c : Kernel.Child) : Sim (Except Errno Pid) := do
  modify (·.settle)
  modify fun m => { m with forks := m.forks + 1 }
  unlessFault .fork do
    let m ← get
    if m.forks > maxForks then return .error .tryAgain
    let pid := m.nextPid
    modify (·.observe (.fork pid))
    let b ← runChild c
    modify (·.create b)
    return .ok pid

/-- What a wait reports about an ended process; signals without a name cannot be reported. -/
def report (pid : Pid) : Ending → Except Errno WaitStatus
  | .exit c => .ok (.exited pid c)
  | .signal s => if s ∈ Signal.named then .ok (.signaled pid s false) else .error .invalid

/-- A wait call of either kind; `collect` says what it does to the process that it finds. -/
def waitFor (k : CallKind) (target : Pid) (collect : Pid → Ending → Sim Unit) :
    Sim (Except Errno WaitStatus) := do
  modify (·.settle)
  match ← fault? k with
  | some 0 => return .ok .stillAlive
  | some e => return .error (.ofCode e)
  | none =>
    let candidates := (← get).selected target
    if candidates.isEmpty then return .error .noChild
    match candidates.findSome? fun p => p.ended.map (p.pid, ·) with
    | none => return .ok .stillAlive
    | some (pid, e) =>
      collect pid e
      return report pid e

def wait (target : Pid) : Sim (Except Errno WaitStatus) :=
  waitFor .waitpid target fun pid e => modify fun m =>
    { m with children := m.children.filter (·.pid ≠ pid) }.observe (.reap pid e)

def peek (target : Pid) : Sim (Except Errno WaitStatus) := waitFor .waitid target fun _ _ => pure ()

/-- A signal is sent to the own process where the target covers it, and to the children it selects. -/
def sendTo (target : Pid) (s : Signal) : Sim (Option Int) := do
  let m ← get
  let own := m.scenario.pid
  let hitsSelf := target ≠ -1 ∧ (target = 0 ∨ target = own ∨ target = -own)
  let targets := (m.selected target).map (·.pid)
  if ¬hitsSelf ∧ targets = [] then return some Errno.noProcess.code
  if hitsSelf then modify (·.post s own)
  modify fun m => targets.foldl (deliver s) m
  return none

/-- The result of a call that can only succeed or fail. -/
def resultOf (failure : Option Int) : Except Errno Unit := failure.elim (.ok ()) fun e => .error (.ofCode e)

def kill (target : Pid) (s : Signal) : Sim (Except Errno Unit) := do
  modify (·.settle)
  let failure ← match ← fault? .kill with
    | some e => pure (some e)
    | none => sendTo target s
  modify (·.observe (.kill target s (failure.getD 0)))
  return resultOf failure

/-- Takes a pending signal, or lets time pass to the next event within the limits and tries again. -/
def takeSignal (timeout : Option Nat) (deadline : Nat) : Nat → Sim (Except Errno Kernel.SignalInfo)
  | 0 => return .error .invalid
  | n + 1 => do
    let m ← get
    match m.nextPending? with
    | some (s, sender) =>
      set { m with pending := m.pending.filter (·.1 ≠ s) }
      return .ok ⟨s, sender⟩
    | none =>
      let limit := if timeout.isSome then min deadline m.scenario.horizon else m.scenario.horizon
      match m.nextTime?.filter (· ≤ limit) with
      | some t =>
        set (m.advance t)
        takeSignal timeout deadline n
      | none =>
        if timeout.isSome ∧ deadline ≤ m.scenario.horizon then
          set (m.advance deadline)
          return .error .tryAgain
        else return .error .invalid

def awaitSignal (timeout : Option Nat) : Sim (Except Errno Kernel.SignalInfo) := unlessFault .sigwait do
  modify (·.settle)
  let m ← get
  takeSignal timeout (m.clock + timeout.getD 0) (m.eventsToCome + 1)

def changeDirectory (path : String) : Sim (Except Errno Unit) := do
  let failure ← fault? .chdir
  modify (·.observe (.chdir path (failure.getD 0)))
  return resultOf failure

/-- The answers to the supervisor. -/
def answer : (c : Kernel.Call) → Sim (Kernel.signature.Answer c)
  | .initLog ident threshold targets => withLog (·.init ident threshold targets)
  | .log r => withLog (·.emit r)
  | .monotonic => return (← get).clock
  | .wallClock => return (← get).wallClock
  | .processId => return (← get).scenario.pid
  | .sleep nanos => modify fun m => m.advance (m.clock + nanos)
  | .fork c => fork c
  | .wait target => wait target
  | .peek target => peek target
  | .kill target s => kill target s
  | .awaitSignal timeout => awaitSignal timeout
  | .setMask mask => setMask mask
  | .trapSignal s => setHandler s true
  | .changeDirectory path => changeDirectory path
  | .readFile path => return (← get).scenario.files.read path
  | .environment name => return (← get).scenario.environment.lookup name

/-- The text in front of the number of an unexpected signal. -/
def noticeLead : String := "cronit: unexpected signal "

end ContainerInit.Simulation
