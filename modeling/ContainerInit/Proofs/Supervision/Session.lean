import ContainerInit.Proofs.Registry.Acyclic
import ContainerInit.Proofs.Supervision.Operation
import ContainerInit.Proofs.Supervision.Supervisor
import ContainerInit.Supervision.Program

/-! # Sessions

A session is any sequence of operations on the services of a registry, where a failure of one does not keep the next
from being tried.  What every session keeps follows from what is kept by the operations on a single service, by the
collection of ended children, and by the calls themselves.

## What has to be shown of a regime

The structures of this module are lists of obligations, each of which is enough for a part of the operations.  From
`Admits`, which is about calls that matter to nobody, they go on to `ServesStops` for the stopping of services,
`ServesStarts` and `ServesLoop` for the loop, `Serves` for all that does not wait for signals, and `ServesAll`.  A
regime that does not care when exactly a state is updated has less to show (`EnduresStops`, `Endures`).

## What follows

For each operation there is one lemma in the namespace of the weakest structure that it needs, by the rules for
regimes along its definition.  Everything that is true of all sessions goes through `keeps_session`, and so a change
to an operation concerns one lemma here, and none of the results. -/

namespace ContainerInit.Supervision

open ContainerInit.Action

variable {r : Registry} {sup : Supervisor}

/-- An operation of the library, with its arguments. -/
inductive Request (r : Registry) where
  | start (i : r.Id)
  | requestStop (i : r.Id)
  | awaitStopped (i : r.Id) (deadline : Nat)
  | stop (i : r.Id) (deadline : Nat)
  | checkProcess (i : r.Id)
  | checkService (i : r.Id)
  | checkAll
  | bootServices
  | checkSchedule (first last : Calendar.Instant)
  | reap (restart : Bool)
  | stopAll (deadline : Nat)
  | bootstrap (p : Plan)
  | mainLoop
  | stopServices (deadline : Nat)
  | endProcesses (target : Pid) (deadline : Nat)
  | shutdown (p : Plan)
  | run (p : Plan)

/-- Carries out a request, without its answer. -/
def Request.carryOut (sup : Supervisor) : Request r → Operation r Unit
  | .start i => Supervision.start sup i
  | .requestStop i => do let _ ← Supervision.requestStop i
  | .awaitStopped i deadline => do let _ ← Supervision.awaitStopped i deadline
  | .stop i deadline => do let _ ← Supervision.stop i deadline
  | .checkProcess i => do let _ ← Supervision.checkProcess i
  | .checkService i => do let _ ← Supervision.checkService sup i
  | .checkAll => do let _ ← Supervision.checkAll sup
  | .bootServices => Supervision.bootServices sup
  | .checkSchedule first last => do let _ ← Supervision.checkSchedule sup first last
  | .reap restart => do let _ ← Supervision.reap sup restart
  | .stopAll deadline => do let _ ← Supervision.stopAll deadline
  | .bootstrap p => Supervision.bootstrap sup p
  | .mainLoop => do let _ ← Supervision.mainLoop sup
  | .stopServices deadline => do let _ ← Supervision.stopServices deadline
  | .endProcesses target deadline => do let _ ← Supervision.endProcesses target deadline
  | .shutdown p => do let _ ← Supervision.shutdown p
  | .run p => do let _ ← Supervision.run sup p

/-- Carries out one request after the other; answers what became of each. -/
def session (sup : Supervisor) (qs : List (Request r)) : Operation r (List (Except Error Unit)) :=
  qs.mapM fun q => attempt (q.carryOut sup)

/-! ## What sessions keep -/

/-- What has to be shown of a regime for the stopping of services. -/
structure ServesStops {W : World Kernel.signature} (R : Regime W (Board r)) : Prop extends Admits R where
  checkProcess : ∀ i, Keeps R (checkProcess i)
  requestStop : ∀ i, Keeps R (requestStop i)
  awaitStopped : ∀ i deadline, Keeps R (awaitStopped i deadline)
  reapEnded : Keeps R reapEnded

/-- What has to be shown of a regime for the starts that the loop makes, of which one that may be tried again does
not fail. -/
structure ServesStarts {W : World Kernel.signature} (R : Regime W (Board r)) (sup : Supervisor) : Prop
    extends Admits R where
  startDue : ∀ i, Keeps R (startDue sup i)
  checkService : ∀ i, Keeps R (checkService sup i)

/-- What has to be shown of a regime for the loop. -/
structure ServesLoop {W : World Kernel.signature} (R : Regime W (Board r)) (sup : Supervisor) : Prop
    extends ServesStops R, ServesStarts R sup

/-- What has to be shown of a regime for the operations that do not wait for signals. -/
structure Serves {W : World Kernel.signature} (R : Regime W (Board r)) (sup : Supervisor) : Prop
    extends ServesStops R where
  start : ∀ i, Keeps R (start sup i)
  invalid : ∀ e, r.validate = .error e → R.errors e

/-- What has to be shown of a regime for all operations. -/
structure ServesAll {W : World Kernel.signature} (R : Regime W (Board r)) (sup : Supervisor) : Prop
    extends Serves R sup where
  kill : ∀ target s, Keeps R (Action.ask (.kill target s))
  awaitSignal : ∀ timeout, Keeps R (Action.ask (.awaitSignal timeout))
  collectAll : Keeps R (Supervisor.collect (-1))

/-- What has to be shown of a regime that takes no notice of when exactly a stop request is noted. -/
structure EnduresStops {W : World Kernel.signature} (R : Regime W (Board r)) : Prop extends Admits R where
  terminate : ∀ (i : r.Id) (p : Pid) ⦃h k b⦄, R.inv h k b → b[i].pid = some p →
    Keeps R (Action.ask (.kill p .terminate))
  checkProcess : ∀ i, Keeps R (checkProcess i)
  stopRequested : ∀ (i : r.Id) ⦃h k b⦄, R.inv h k b → b[i].pid.isSome →
    R.inv h k (b.set i { b[i] with stopRequested := true })
  stopWithdrawn : ∀ (i : r.Id) ⦃h k b⦄, R.inv h k b →
    R.inv h k (b.set i { b[i] with stopRequested := false })
  reapEnded : Keeps R reapEnded

/-- What has to be shown of a regime that takes no notice of when exactly a state is updated. -/
structure Endures {W : World Kernel.signature} (R : Regime W (Board r)) (sup : Supervisor) : Prop
    extends EnduresStops R where
  spawned : ∀ (i : r.Id) ⦃n h k b⦄, R.inv h k b → b[i].pid = none →
    Assures W R.asks (sup.spawn (r.service i).argv) (fun h k res b => match res with
      | .ok p => R.inv h k (b.set i (b[i].started p))
      | .error e => R.inv h k (b.set i b[i].failed) ∧ R.errors e) n h k b

theorem keeps_stateOf {W : World Kernel.signature} {R : Regime W (Board r)} (i : r.Id) :
    Keeps R (stateOf i) := keeps_get.bind fun _ => keeps_pure _

/-- A start keeps what every part of its plan keeps. -/
theorem keeps_start {W : World Kernel.signature} {R : Regime W (Board r)}
    (hplan : ∀ b i e, r.plan b i = .error e → R.errors e) (hspawn : ∀ i, Keeps R (spawn sup i)) (i : r.Id) :
    Keeps R (start sup i) :=
  keeps_get.bind fun b => (keeps_ofExcept (hplan b i)).bind fun is => keeps_forM is hspawn

/-- The code of a status is known, or its loss is recorded. -/
theorem finalCode_cases (i : r.Id) (p : Pid) (status : Option WaitStatus) :
    (∃ code, finalCode i p status = pure code) ∨ finalCode i p status = (do
      Action.ask (.log (lossRecord (r.service i).name p))
      return WaitStatus.signaledCode) := by
  rw [finalCode]
  cases status.bind (·.exitCode?) with
  | some code => exact .inl ⟨code, rfl⟩
  | none => exact .inr rfl

/-- Recording the end of a process where the regime admits the loss of its status as well. -/
theorem Admits.recordEnd {W : World Kernel.signature} {R : Regime W (Board r)} (hR : Admits R) (i : r.Id) (p : Pid)
    (status : Option WaitStatus) (hlost : ∀ name pid, Keeps R (Action.ask (.log (lossRecord name pid))))
    (hended : ∀ code ⦃h k b⦄, R.inv h k b → R.inv h k (b.set i (b[i].ended code))) :
    Keeps R (finalCode i p status >>= fun code => Supervision.recordEnd i p code >>= fun _ => pure false) := by
  refine Keeps.bind ?_ fun code => ?_
  · rcases finalCode_cases i p status with ⟨code, hc⟩ | hc
    · rw [hc]
      exact keeps_pure _
    · rw [hc]
      exact (hlost _ _).bind fun _ => keeps_pure _
  · refine Keeps.bind (fun n h k b hi => ?_) fun _ => keeps_pure _
    refine assures_bind.mpr (assures_update.mpr (assures_bind.mpr (assures_stateOf.mpr ?_)))
    exact hR.ask _ (routine_log_of_level (by decide)) (hended code hi)

/-- Checking a process where the regime admits the loss of a status as well. -/
theorem Admits.checkProcess {W : World Kernel.signature} {R : Regime W (Board r)} (hR : Admits R) (i : r.Id)
    (hwait : ∀ p ⦃h k b⦄, R.inv h k b → b[i].pid = some p → Keeps R (Action.ask (.wait p)))
    (hlost : ∀ name pid, Keeps R (Action.ask (.log (lossRecord name pid))))
    (hended : ∀ code ⦃h k b⦄, R.inv h k b → R.inv h k (b.set i (b[i].ended code))) :
    Keeps R (Supervision.checkProcess i) := by
  intro n h k b hi
  refine assures_bind.mpr (assures_stateOf.mpr ?_)
  dsimp only
  cases hp : b[i].pid with
  | none => exact keeps_pure _ hi
  | some p =>
    refine Keeps.bind (hR.collect (hwait p hi hp)) (fun c => .ite (fun _ => keeps_pure _) fun _ => ?_) hi
    exact hR.recordEnd i p c.status hlost hended

/-- Collecting an ended child where the regime admits the error as well. -/
theorem Admits.reapOne {W : World Kernel.signature} {R : Regime W (Board r)} (hR : Admits R)
    (hstill : ∀ name pid, R.errors (.stillOwned name pid)) (hcheck : ∀ i, Keeps R (Supervision.checkProcess i))
    {p : Pid} (hwait : Keeps R (Action.ask (.wait p))) : Keeps R (Supervision.reapOne p) := by
  refine keeps_get.bind fun b => ?_
  cases b.owner? p with
  | some i =>
    exact (hcheck i).bind fun _ => .ite (fun _ => keeps_throw (hstill _ _)) fun _ => keeps_pure _
  | none =>
    refine (hR.collect hwait).bind fun _ => ?_
    exact hR.ask _ (routine_log_of_source (by decide))

/-- Children are collected one by one, as long as a look finds any that has ended. -/
theorem Admits.reapEnded {W : World Kernel.signature} {R : Regime W (Board r)} (hR : Admits R)
    (hone : ∀ p, Keeps R (Supervision.reapOne p)) : Keeps R Supervision.reapEnded := by
  refine .repeatUntil ((hR.awaitExit (-1) none).bind fun state => ?_)
  cases state with
  | noChildren => exact keeps_pure _
  | running => exact keeps_pure _
  | exited p => exact (hone p).bind fun _ => keeps_pure _

namespace Admits

variable {W : World Kernel.signature} {R : Regime W (Board r)} (hR : Admits R)

include hR

theorem logRegistry (l : Log.Level) (text : String) : Keeps R (logRegistry l text) :=
  hR.ask _ (routine_log_of_source (by decide))

theorem logProgram (l : Log.Level) (text : String) : Keeps R (logProgram l text) :=
  hR.ask _ (routine_log_of_source (by decide))

theorem logService {l : Log.Level} {text : String} (hl : l ≠ .warn) : Keeps R (logService l text) :=
  hR.ask _ (routine_log_of_level hl)

/-- Starting a process for a service where the regime keeps up with the state that the service gets by it. -/
theorem spawnService (i : r.Id) (hspawned : ∀ ⦃n h k b⦄, R.inv h k b → b[i].pid = none →
    Assures W R.asks (sup.spawn (r.service i).argv) (fun h k res b => match res with
      | .ok p => R.inv h k (b.set i (b[i].started p))
      | .error e => R.inv h k (b.set i b[i].failed) ∧ R.errors e) n h k b) :
    Keeps R (Supervision.spawn sup i) := by
  intro n h k b hi
  refine assures_bind.mpr (assures_stateOf.mpr ?_)
  dsimp only
  cases hp : b[i].pid with
  | some p => exact hR.logService (by decide) hi
  | none =>
    refine assures_bind.mpr (assures_attempt.mpr ((hspawned hi hp).imp fun h k res b hm => ?_))
    cases res with
    | ok p => exact assures_bind.mpr (assures_update.mpr (hR.logService (by decide) hm))
    | error e =>
      refine assures_bind.mpr (assures_update.mpr ?_)
      exact (hR.logService (by decide)).bind (fun _ => keeps_throw hm.2) hm.1

theorem awaitStopped (i : r.Id) (deadline : Nat) (hcheck : Keeps R (Supervision.checkProcess i))
    (hwithdrawn : ∀ ⦃h k b⦄, R.inv h k b → R.inv h k (b.set i { b[i] with stopRequested := false })) :
    Keeps R (awaitStopped i deadline) := by
  refine (keeps_stateOf i).bind fun s => ?_
  cases s.pid with
  | none => exact keeps_pure _
  | some p =>
    refine (hR.awaitExit _ _).bind fun _ => hcheck.bind fun _ =>
      .ite (fun _ => Keeps.bind (hR.ask _ fun name pid e => ?_) fun _ => ?_) fun _ => keeps_pure _
    · have ht := congrArg (fun l => l.text.toList.head?) e
      simp [lossRecord] at ht
    · intro n h k b hi
      exact assures_bind.mpr (assures_update.mpr (keeps_pure _ (hwithdrawn hi)))

/-- A failure that is reported to the log is none of the operation. -/
theorem reported (i : r.Id) {x : Operation r Bool} (hx : Keeps R x) : Keeps R (reported i x) :=
  hx.attempt_bind (fun _ => keeps_pure _) fun _ _ => (hR.logRegistry _ _).bind fun _ => keeps_pure _

theorem changeDirectory (path : String) : Keeps R (changeDirectory path : Operation r Unit) := by
  refine (hR.logProgram _ _).bind fun _ => .ite (fun _ => keeps_throw (hR.errors _ rfl nofun)) fun _ => ?_
  refine (hR.ask (.changeDirectory path) trivial).bind fun answer => ?_
  cases answer with
  | ok _ => exact keeps_pure _
  | error e => exact keeps_throw (hR.errors _ rfl nofun)

theorem currentMinute : Keeps R (currentMinute : Operation r _) :=
  (hR.ask .wallClock trivial).bind fun _ => keeps_pure _

theorem nextMinute : Keeps R (nextMinute : Operation r Nat) :=
  (hR.ask .monotonic trivial).bind fun _ => (hR.ask .wallClock trivial).bind fun _ => keeps_pure _

/-- One start after the other. -/
theorem bootServices (hstart : ∀ i, Keeps R (Supervision.start sup i)) : Keeps R (Supervision.bootServices sup) :=
  keeps_forM _ fun i => (hR.logRegistry _ _).bind fun _ => hstart i

theorem bootstrap (hinvalid : ∀ e, r.validate = .error e → R.errors e)
    (hstart : ∀ i, Keeps R (Supervision.start sup i)) (p : Plan) : Keeps R (Supervision.bootstrap sup p) := by
  unfold Supervision.bootstrap
  have hvalid : Keeps R (Action.ofExcept r.validate : Operation r Unit) := keeps_ofExcept hinvalid
  have hboot := hR.bootServices hstart
  cases p.settings.workdir with
  | some path => exact (hR.changeDirectory path).bind fun _ => hvalid.bind fun _ => hboot
  | none => exact hvalid.bind fun _ => hboot

theorem awaitServices (hawait : ∀ timeout, Keeps R (Action.ask (.awaitSignal timeout)))
    (hreap : Keeps R Supervision.reapEnded) (deadline : Nat) :
    Keeps R (awaitServices deadline : Operation r Bool) := by
  refine .repeatUntil (keeps_get.bind fun b => .ite (fun _ => keeps_pure _) fun _ => ?_)
  refine (hR.awaitSignal hawait _).bind fun info => ?_
  cases info with
  | none => exact (hR.logProgram _ _).bind fun _ => keeps_pure _
  | some info =>
    refine (hR.logProgram _ _).bind fun _ => .ite (fun _ => ?_) fun _ => keeps_pure _
    exact hreap.bind fun _ => keeps_pure _

end Admits

/-- What is kept by every call but waits for signals and new signal masks, whatever becomes of the services, is kept
by what is made of such calls. -/
theorem Endures.of_asks {W : World Kernel.signature} {R : Regime W (Board r)} (herrors : ∀ e, R.errors e)
    (hboard : ∀ ⦃h k b⦄ (b' : Board r), R.inv h k b → R.inv h k b')
    (hask : ∀ c, (∀ timeout, c ≠ .awaitSignal timeout) → (∀ mask, c ≠ .setMask mask) → Keeps R (Action.ask c))
    (sup : Supervisor) : Endures R sup := by
  have hR : Admits R :=
    ⟨fun e _ _ => herrors e, fun c hc => hask c (by rintro _ rfl; exact hc) (by rintro _ rfl; exact hc)⟩
  have hcheck (i : r.Id) : Keeps R (checkProcess i) :=
    hR.checkProcess i (fun _ _ _ _ _ _ => hask _ nofun nofun) (fun _ _ => hask _ nofun nofun) fun _ _ _ _ => hboard _
  refine ⟨⟨hR, fun _ _ _ _ _ _ _ => hask _ nofun nofun, hcheck, fun _ _ _ _ hi _ => hboard _ hi,
    fun _ _ _ _ => hboard _, ?_⟩, fun i n h k b hi _ => ?_⟩
  · exact hR.reapEnded fun p => hR.reapOne (fun _ _ => herrors _) hcheck (hask _ nofun nofun)
  · refine (hR.spawn sup (hask _ nofun nofun) (fun _ _ => herrors _) hi).imp fun h k res b hm => ?_
    cases res with
    | ok p => exact hboard _ hm.1
    | error e => exact ⟨hboard _ hm.1, hm.2⟩

namespace EnduresStops

variable {W : World Kernel.signature} {R : Regime W (Board r)} (hR : EnduresStops R)

include hR

/-- A request is noted and sent, or withdrawn if there is nobody to get it. -/
theorem requestStop (i : r.Id) : Keeps R (requestStop i) := by
  refine (hR.checkProcess i).bind fun running => .ite (fun _ => keeps_pure _) fun _ => ?_
  intro n h k b hi
  refine assures_bind.mpr (assures_stateOf.mpr ?_)
  dsimp only
  cases hp : b[i].pid with
  | none => exact keeps_pure _ hi
  | some p =>
    have hterm := hR.terminate i p hi hp
    refine (hR.logService (by decide)).ask_bind hi fun _ h k hi => ?_
    refine assures_bind.mpr (assures_update.mpr ?_)
    refine Keeps.bind (hR.send hterm) (fun _ => ?_) (hR.stopRequested i hi (Option.isSome_of_eq_some hp))
    exact .ite (fun _ => (hR.logService (by decide)).bind fun _ => keeps_pure _) fun _ => keeps_pure _

theorem awaitStopped (i : r.Id) (deadline : Nat) : Keeps R (awaitStopped i deadline) :=
  hR.toAdmits.awaitStopped i deadline (hR.checkProcess i) (hR.stopWithdrawn i)

theorem servesStops : ServesStops R where
  toAdmits := hR.toAdmits
  checkProcess := hR.checkProcess
  requestStop := hR.requestStop
  awaitStopped := hR.awaitStopped
  reapEnded := hR.reapEnded

end EnduresStops

namespace Endures

variable {W : World Kernel.signature} {R : Regime W (Board r)} (hR : Endures R sup)

include hR

/-- A service gets a process, or it is left broken. -/
theorem spawn (i : r.Id) : Keeps R (spawn sup i) :=
  hR.toAdmits.spawnService i fun _ _ _ _ hi hp => hR.spawned i hi hp

/-- What endures the updates serves the operations. -/
theorem serves (hconfig : ∀ e, e.isConfig = true → R.errors e) : Serves R sup where
  toServesStops := hR.servesStops
  start := keeps_start (fun _ _ e he => hconfig e (Board.isConfig_of_plan_eq_error he)) hR.spawn
  invalid e he := hconfig e (Registry.isConfig_of_validate_eq_error he)

end Endures

namespace ServesStops

variable {W : World Kernel.signature} {R : Regime W (Board r)} (hR : ServesStops R)

include hR

/-- A request, and the wait for what comes of it. -/
theorem stop (i : r.Id) (deadline : Nat) : Keeps R (stop i deadline) :=
  (hR.requestStop i).bind fun _ => .ite (fun _ => hR.awaitStopped i deadline) fun _ => keeps_pure _

/-- All requests, and all waits. -/
theorem stopAll (deadline : Nat) : Keeps R (stopAll deadline : Operation r Bool) := by
  unfold Supervision.stopAll
  refine (keeps_mapM _ fun i => (hR.reported i (hR.requestStop i)).bind fun _ => keeps_pure _).bind
    fun asked => ?_
  refine Keeps.bind (keeps_mapM _ fun d => ?_) fun waited => keeps_pure _
  exact hR.reported d.1 (hR.awaitStopped d.1 deadline)

end ServesStops

/-- The regime with the errors that leave everything in order for another attempt. -/
def retriable {W : World Kernel.signature} (R : Regime W (Board r)) : Regime W (Board r) :=
  R.failing fun e => e.isRecoverable = true ∨ R.errors e

namespace Admits

variable {W : World Kernel.signature} {R : Regime W (Board r)} (hR : Admits R) {i : r.Id}
  (hstart : Keeps (retriable R) (start sup i))

include hR hstart

theorem startDue : Keeps R (startDue sup i) :=
  hstart.attempt_bind_of_failing (fun _ => keeps_pure _) fun _ he =>
    .ite (fun hr => keeps_throw (he.resolve_left (by simpa using hr))) fun _ =>
      (hR.logRegistry _ _).bind fun _ => keeps_pure _

theorem checkService : Keeps R (checkService sup i) := by
  refine (keeps_stateOf i).bind fun state => .ite (fun _ => keeps_pure _) fun _ => ?_
  refine .ite (fun _ => keeps_pure _) fun _ => (hR.logRegistry _ _).bind fun _ => ?_
  refine hstart.attempt_bind_of_failing (fun _ => ?_) fun _ he => ?_
  · exact (keeps_stateOf i).bind fun _ => keeps_pure _
  · exact .ite (fun hr => keeps_throw (he.resolve_left (by simpa using hr))) fun _ =>
      (hR.logRegistry _ _).bind fun _ => keeps_pure _

end Admits

/-- A regime that keeps every start keeps those of the loop. -/
theorem Admits.servesStarts {W : World Kernel.signature} {R : Regime W (Board r)} (hR : Admits R)
    (hstart : ∀ i, Keeps R (start sup i)) : ServesStarts R sup where
  toAdmits := hR
  startDue i := hR.startDue ((hstart i).failing fun _ => .inr)
  checkService i := hR.checkService ((hstart i).failing fun _ => .inr)

namespace ServesStarts

variable {W : World Kernel.signature} {R : Regime W (Board r)} (hR : ServesStarts R sup)

include hR

/-- The starts that are due, one after the other. -/
theorem checkSchedule (first last : Calendar.Instant) : Keeps R (checkSchedule sup first last) := by
  unfold Supervision.checkSchedule
  generalize firstDue r (windowSize first last) first [] = due
  refine (keeps_forM due fun d => hR.logRegistry _ _).bind fun _ => ?_
  exact (keeps_filterM due fun d => hR.startDue d.1).bind fun _ => keeps_pure _

/-- The services, one after the other. -/
theorem checkAll : Keeps R (checkAll sup : Operation r Bool) :=
  (keeps_mapM _ hR.checkService).bind fun _ => keeps_pure _

theorem checkElapsed (last : Calendar.Instant) : Keeps R (checkElapsed sup last : Operation r _) := by
  refine hR.currentMinute.bind fun now => .ite (fun _ => keeps_pure _) fun _ => ?_
  refine (hR.checkSchedule _ _).bind fun started => .ite (fun _ => ?_) fun _ => keeps_pure _
  exact (hR.logProgram _ _).bind fun _ => keeps_pure _

end ServesStarts

namespace ServesLoop

variable {W : World Kernel.signature} {R : Regime W (Board r)} (hR : ServesLoop R sup)

include hR

/-- Ended children are collected, and a sweep may follow. -/
theorem reap (restart : Bool) : Keeps R (reap sup restart : Operation r Bool) := by
  refine hR.reapEnded.bind fun noChildren => .ite (fun _ => ?_) fun _ => keeps_pure _
  exact hR.checkAll.bind fun _ => keeps_get.bind fun _ =>
    .ite (fun _ => keeps_pure _) fun _ => keeps_pure _

theorem handleSignal (info : Kernel.SignalInfo) : Keeps R (handleSignal sup info : Operation r _) := by
  refine (hR.logProgram _ _).bind fun _ => .ite (fun _ => keeps_pure _) fun _ =>
    .ite (fun _ => ?_) fun _ => ?_
  · exact (hR.reap true).bind fun _ => .ite (fun _ => keeps_pure _) fun _ => keeps_pure _
  · exact (hR.logProgram _ _).bind fun _ => keeps_pure _

variable (hawait : ∀ timeout, Keeps R (Action.ask (.awaitSignal timeout)))

include hawait

theorem awaitEvent (last : Calendar.Instant) (deadline : Option Nat) :
    Keeps R (awaitEvent sup last deadline : Operation r _) := by
  refine (hR.toAdmits.awaitSignal hawait deadline).bind fun info => ?_
  cases info with
  | none => exact keeps_pure _
  | some info =>
    refine (hR.handleSignal info).bind fun exit => ?_
    cases exit <;> exact keeps_pure _

theorem loopOnce (last : Calendar.Instant) : Keeps R (loopOnce sup last : Operation r _) :=
  .ite (fun _ => (hR.checkElapsed last).bind fun last => hR.nextMinute.bind fun _ =>
    hR.awaitEvent hawait last _) fun _ => hR.awaitEvent hawait last none

/-- The rounds of the loop. -/
theorem mainLoop : Keeps R (mainLoop sup : Operation r LoopExit) :=
  hR.currentMinute.bind fun last => .iterate (hR.loopOnce hawait) last

end ServesLoop

namespace Serves

variable {W : World Kernel.signature} {R : Regime W (Board r)} (hR : Serves R sup)

include hR

theorem loop : ServesLoop R sup :=
  { hR.toServesStops with toServesStarts := hR.toAdmits.servesStarts hR.start }

theorem bootServices : Keeps R (bootServices sup) := hR.toAdmits.bootServices hR.start

theorem bootstrap (p : Plan) : Keeps R (bootstrap sup p) := hR.toAdmits.bootstrap hR.invalid hR.start p

end Serves

namespace ServesAll

variable {W : World Kernel.signature} {R : Regime W (Board r)} (hR : ServesAll R sup)

include hR

theorem nextSignal (deadline : Option Nat) :
    Keeps R (Supervisor.awaitSignal deadline : Operation r _) :=
  hR.toAdmits.awaitSignal hR.awaitSignal deadline

theorem mainLoop : Keeps R (mainLoop sup : Operation r LoopExit) := hR.loop.mainLoop hR.awaitSignal

theorem stopServices (deadline : Nat) : Keeps R (stopServices deadline : Operation r Bool) := by
  refine (hR.logProgram _ _).bind fun _ => (hR.stopAll deadline).bind fun stopped => ?_
  refine .ite (fun _ => keeps_pure _) fun _ => (hR.logProgram _ _).bind fun _ => ?_
  exact hR.toAdmits.awaitServices hR.awaitSignal hR.reapEnded deadline

theorem killOnce (target : Pid) (d : Nat × Bool) : Keeps R (killOnce target d : Operation r _) := by
  obtain ⟨deadline, killed⟩ := d
  refine (hR.nextSignal _).bind fun info => ?_
  cases info with
  | none =>
    refine (hR.logProgram _ _).bind fun _ => (hR.send (hR.kill target _)).bind fun sent =>
      .ite (fun _ => ?_) fun _ => ?_
    · exact (hR.logProgram _ _).bind fun _ => keeps_pure _
    · refine hR.reapEnded.bind fun _ => .ite (fun _ => keeps_pure _) fun _ => ?_
      exact (hR.ask .monotonic trivial).bind fun _ => keeps_pure _
  | some info =>
    refine (hR.logProgram _ _).bind fun _ => .ite (fun _ => ?_) fun _ => keeps_pure _
    exact hR.reapEnded.bind fun _ => .ite (fun _ => keeps_pure _) fun _ => keeps_pure _

/-- A signal to the target, and the rounds that follow. -/
theorem endProcesses (target : Pid) (deadline : Nat) :
    Keeps R (endProcesses target deadline : Operation r Bool) := by
  refine (hR.logProgram _ _).bind fun _ => (hR.send (hR.kill target _)).bind fun sent =>
    .ite (fun _ => ?_) fun _ => ?_
  · exact (hR.logProgram _ _).bind fun _ => keeps_pure _
  · exact .iterate (hR.killOnce target) _

/-- The services first, and then whoever is left. -/
theorem shutdown (p : Plan) : Keeps R (shutdown p : Operation r Outcome) := by
  refine (hR.ask .monotonic trivial).bind fun now => (hR.stopServices _).bind fun graceful => ?_
  refine (hR.endProcesses _ _).bind fun killed => hR.collectAll.bind fun collected => ?_
  obtain ⟨gone, status | status⟩ := collected
  · exact keeps_pure _
  · exact (hR.logProgram _ _).bind fun _ => keeps_pure _

/-- The start of the system, the loop, and the shutdown. -/
theorem run (p : Plan) : Keeps R (run sup p : Operation r Outcome) := by
  refine (hR.ask .processId trivial).bind fun pid => (hR.logProgram _ _).bind fun _ => ?_
  refine (hR.bootstrap p).bind fun _ => hR.mainLoop.bind fun exit => ?_
  have hrest : Keeps R (do
      let outcome ← Supervision.shutdown p
      Supervision.logProgram .info ("Exiting (" ++ outcome.name ++ " shutdown).")
      return outcome : Operation r Outcome) :=
    (hR.shutdown p).bind fun _ => (hR.logProgram _ _).bind fun _ => keeps_pure _
  cases exit <;> exact (hR.logProgram _ _).bind fun _ => hrest

/-- Each of the operations. -/
theorem carryOut (q : Request r) : Keeps R (q.carryOut sup) := by
  cases q with
  | start i => exact hR.start i
  | requestStop i => exact (hR.requestStop i).bind fun _ => keeps_pure _
  | awaitStopped i deadline => exact (hR.awaitStopped i deadline).bind fun _ => keeps_pure _
  | stop i deadline => exact (hR.stop i deadline).bind fun _ => keeps_pure _
  | checkProcess i => exact (hR.checkProcess i).bind fun _ => keeps_pure _
  | checkService i => exact (hR.loop.checkService i).bind fun _ => keeps_pure _
  | checkAll => exact hR.loop.checkAll.bind fun _ => keeps_pure _
  | bootServices => exact hR.bootServices
  | checkSchedule first last => exact (hR.loop.checkSchedule first last).bind fun _ => keeps_pure _
  | reap restart => exact (hR.loop.reap restart).bind fun _ => keeps_pure _
  | stopAll deadline => exact (hR.stopAll deadline).bind fun _ => keeps_pure _
  | bootstrap p => exact hR.bootstrap p
  | mainLoop => exact hR.mainLoop.bind fun _ => keeps_pure _
  | stopServices deadline => exact (hR.stopServices deadline).bind fun _ => keeps_pure _
  | endProcesses target deadline => exact (hR.endProcesses target deadline).bind fun _ => keeps_pure _
  | shutdown p => exact (hR.shutdown p).bind fun _ => keeps_pure _
  | run p => exact (hR.run p).bind fun _ => keeps_pure _

/-- A session keeps the regime, and all that has failed in it has failed with an error of the regime. -/
theorem session (qs : List (Request r)) {n : Nat} {h : History (Board r)} {k : W.State} {b : Board r}
    (hi : R.inv h k b) : Assures W R.asks (session sup qs) (fun h k results b => R.inv h k b ∧
      ∃ l, results = .ok l ∧ ∀ e, .error e ∈ l → R.errors e) n h k b := by
  induction qs generalizing h k b with
  | nil => exact ⟨hi, [], rfl, nofun⟩
  | cons q qs ih =>
    rw [Supervision.session, List.mapM_cons]
    refine assures_bind.mpr (assures_attempt.mpr ((hR.carryOut q hi).imp fun h k res b hm => ?_))
    refine assures_bind.mpr ((ih hm.1).imp fun h k results b hrest => ?_)
    obtain ⟨hi, l, rfl, hl⟩ := hrest
    refine ⟨hi, res :: l, rfl, fun e he => ?_⟩
    rcases List.mem_cons.mp he with rfl | he
    · exact hm.2
    · exact hl e he

end ServesAll

end ContainerInit.Supervision
