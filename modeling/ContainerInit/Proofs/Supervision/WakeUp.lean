import ContainerInit.CommandLine.Program
import ContainerInit.Proofs.Dialogue.Triple
import ContainerInit.Proofs.Kernel.Signals
import ContainerInit.Proofs.Supervision.Operation
import ContainerInit.Proofs.Supervision.Session

/-! # Waking up

Whenever the program waits for a signal while a child has ended that has not been collected, `SIGCHLD` is pending, so
that the wait comes to an end.  Taking the signal is the only way in which that is lost, and after each time that it
is taken, children are collected until none has ended.

## What may get lost

Signals coalesce, so that one notice may stand for several children, and a notice that has been taken is gone.  What
has to hold at each wait is `Announced`: if any child has ended, `SIGCHLD` is pending.  Almost everything that the
program does leaves such a condition as it was (`Lasting`).  There are two exceptions, namely another signal mask,
which could let the notice through, and a wait, which may take it.

## Two kinds of proofs

So the proofs come in two kinds.  The actions without a wait keep any lasting condition, and they are dealt with once
and for all by the regime `watch`.  The others have a triple each, from `watches_takeSignal` up to `watches_run`.
There the condition after a wait is `TookOther`: still announced, unless it is the notice that has been taken.  It is
restored by `watches_reapEnded`, which ends only where a look at all children finds none that has ended.

The last part is about the creation of the supervisor, where the mask is set, and its removal, after which there are
no more waits. -/

namespace ContainerInit.Supervision

open ContainerInit.Action Kernel Signalled

variable {r : Registry} {sup : Supervisor} {σ α : Type} {P : Signalled → Prop}

/-- If the call waits for a signal, ended children are announced. -/
def Watched (k : Signalled) (c : Kernel.Call) : Prop := ∀ timeout, c = .awaitSignal timeout → k.Announced

/-- A condition that only ever ends by the taking of a signal, or another signal mask. -/
structure Lasting (P : Signalled → Prop) : Prop where
  drift : ∀ {k k'}, P k → Signalled.Drifts k k' → P k'
  answers : ∀ {c k a k'}, (∀ timeout, c ≠ .awaitSignal timeout) → (∀ mask, c ≠ .setMask mask) → P k →
    Signalled.world.Answers k c a k' → P k'

theorem lasting_true : Lasting fun _ => True := ⟨fun _ _ => trivial, fun _ _ _ _ => trivial⟩

/-- Announcements are lost only by taking a signal, or by another mask. -/
theorem lasting_announced : Lasting Announced where
  drift := Announced.drift
  answers hc hm hk h := hk.answers h fun hs => by rwa [answers_eq hc hm h.2]

/-- A condition that lasts does so where something else is assumed. -/
theorem Lasting.of_imp {φ : Prop} (hP : Lasting P) : Lasting fun k => φ → P k where
  drift hk d h := hP.drift (hk h) d
  answers hc hm hk ha h := hP.answers hc hm (hk h) ha

/-! ## What does not take signals -/

/-- The regime of a condition where ended children are announced at every wait for a signal. -/
abbrev watch (P : Signalled → Prop) (σ : Type) : Regime Signalled.world σ := .ofWorld Watched P σ

/-- A call that is not a wait keeps what it does not change. -/
theorem keeps_watch_ask {c : Kernel.Call} (hd : ∀ {k k'}, P k → Signalled.Drifts k k' → P k')
    (hc : ∀ timeout, c ≠ .awaitSignal timeout)
    (ha : ∀ {k a k'}, P k → Signalled.world.Answers k c a k' → P k') : Keeps (watch P σ) (ask c) := by
  intro n h k s hk
  refine assures_ask.mpr fun k₁ d => ?_
  have hk₁ := Signalled.world.of_drifts hd hk d
  exact ⟨fun timeout e => absurd e (hc timeout), fun a k₂ h => ⟨ha hk₁ h, trivial⟩⟩

namespace Lasting

variable (hP : Lasting P)

include hP

/-- Most of the calls change nothing. -/
theorem ask (c : Kernel.Call) (hc : ∀ timeout, c ≠ .awaitSignal timeout) (hm : ∀ mask, c ≠ .setMask mask) :
    Keeps (watch P σ) (Action.ask c) := keeps_watch_ask hP.drift hc fun hk h => hP.answers hc hm hk h

/-- A record changes nothing. -/
theorem log (l : Log.Level) (source text : String) : Keeps (watch P σ) (Action.log l source text) :=
  hP.ask (.log ⟨l, source, text⟩) nofun nofun

theorem admits : Admits (watch P σ) where
  errors _ _ _ := trivial
  ask c hc := hP.ask c (by rintro _ rfl; exact hc) (by rintro _ rfl; exact hc)

theorem keeps_checkProcess (i : r.Id) : Keeps (watch P (Board r)) (checkProcess i) :=
  hP.admits.checkProcess i (fun p _ _ _ _ _ => hP.ask (.wait p) nofun nofun)
    (fun _ _ => hP.log _ _ _) fun _ _ _ _ hk => hk

theorem keeps_reapOne (p : Pid) : Keeps (watch P (Board r)) (reapOne p) :=
  hP.admits.reapOne (fun _ _ => trivial) hP.keeps_checkProcess (hP.ask (.wait p) nofun nofun)

theorem keeps_send (target : Pid) (s : Signal) : Keeps (watch P σ) (Supervisor.send target s) :=
  hP.admits.send (hP.ask (.kill target s) nofun nofun)

theorem endures (sup : Supervisor) : Endures (watch P (Board r)) sup :=
  .of_asks (fun _ => trivial) (fun _ _ _ _ hk => hk) hP.ask sup

theorem serves (sup : Supervisor) : Serves (watch P (Board r)) sup := (hP.endures sup).serves fun _ _ => trivial

end Lasting

/-! ## What takes signals -/

/-- From a state with `P`, ended children are announced at every wait for a signal, and unless the action
fails it leaves a state with `Q`. -/
abbrev Watches (P : Signalled → Prop) (x : Action σ α) (Q : α → Signalled → Prop) : Prop :=
  Triple (W := Signalled.world) Watched P x Q

/-- Unless it is `SIGCHLD` that has been taken, ended children are still announced. -/
def TookOther (info : Option SignalInfo) (k : Signalled) : Prop :=
  (∀ i, info = some i → i.signal ≠ Signal.child) → k.Announced

/-- Without a signal everything is still announced, and with one unless it is `SIGCHLD`. -/
theorem watches_takeSignal (timeout : Option Nat) :
    Watches Announced (Supervisor.takeSignal timeout : Action σ _) fun info k =>
      info.elim k.Announced (TookOther · k) := by
  refine Triple.bind (Q := fun a (k : Signalled) =>
      (∀ info, a = .ok info → info.signal ≠ Signal.child) → k.Announced)
    (triple_ask Announced.drift (fun hk _ _ => hk) fun hk h ha => hk.awaitSignal h ha) fun answer => ?_
  cases answer with
  | ok info =>
    exact triple_pure fun k hk ho => hk fun info h => ho info (congrArg _ (Except.ok.inj h))
  | error e =>
    refine .ite (fun _ => ?_) fun _ => .ite (fun _ => ?_) fun _ => triple_throw
    · exact triple_pure fun k hk _ => hk nofun
    · exact triple_pure fun k hk => hk nofun

theorem watches_awaitSignal (deadline : Option Nat) :
    Watches Announced (Supervisor.awaitSignal deadline : Action σ _) TookOther :=
  .repeatUntil <| (lasting_announced.admits.timeLeft deadline).triple.bind fun timeout =>
    watches_takeSignal timeout

/-- After a look at all children that finds none which has ended, there is nothing to announce. -/
theorem watches_peek : Watches (fun _ => True) (Supervisor.peek (-1) : Action σ _)
    fun state k => (∀ p, state ≠ .exited p) → k.Announced := by
  refine .repeatUntil (Triple.bind
    (Q := fun a (k : Signalled) => a = .ok .stillAlive ∨ a = .error .noChild → k.Announced)
    (triple_ask (fun _ _ => trivial) (fun _ _ => nofun) fun _ h ha => ?_) fun answer => ?_)
  · rintro ⟨p, hp⟩
    obtain ⟨⟨⟨found, hf⟩, hk⟩, -⟩ := h
    exact absurd (hk ▸ hp) (Children.not_hasEnded_of_finds hf ha)
  · cases answer with
    | ok status =>
      refine triple_pure fun k hk hne => ?_
      cases status with
      | stillAlive => exact hk (.inl rfl)
      | _ => exact absurd rfl (hne _)
    | error e =>
      refine .ite (fun he => ?_) fun _ => .ite (fun _ => ?_) fun _ => triple_throw
      · exact triple_pure fun k hk _ => hk (.inr (congrArg _ he))
      · exact triple_pure fun _ _ => trivial

/-- Without a deadline nothing is waited for, and this is a single look. -/
theorem watches_awaitExit : Watches (fun _ => True) (Supervisor.awaitExit (-1) none : Action σ _)
    fun state k => (∀ p, state ≠ .exited p) → k.Announced :=
  .repeatUntil (watches_peek.bind fun _ => triple_pure fun _ => id)

/-- Collecting ended children goes on until none is left. -/
theorem watches_reapEnded : Watches (fun _ => True) (reapEnded : Operation r Bool) fun _ => Announced := by
  refine .repeatUntil (watches_awaitExit.bind fun state => ?_)
  cases state with
  | noChildren => exact triple_pure fun k hk => hk nofun
  | running => exact triple_pure fun k hk => hk nofun
  | exited p =>
    refine Triple.weaken (P := fun _ => True) (fun _ _ => trivial) ?_
    exact (lasting_true.keeps_reapOne p).triple.bind fun _ => triple_pure fun _ _ => trivial

theorem watches_logSignal (info : SignalInfo) :
    Watches (TookOther (some info)) (logSignal info : Operation r Unit) fun _ => TookOther (some info) :=
  (lasting_announced.of_imp.log _ _ _).triple

/-- Where it is `SIGCHLD` that has been taken, children are collected, and otherwise nothing is lost. -/
theorem watches_handleSignal (info : SignalInfo) :
    Watches (TookOther (some info)) (handleSignal sup info : Operation r _) fun _ => Announced := by
  have hS := lasting_announced.serves (r := r) sup
  refine (watches_logSignal info).bind fun _ => .ite (fun ht => ?_) fun _ => .ite (fun _ => ?_) fun hc => ?_
  · refine triple_pure fun k hk => hk fun i hi e => ?_
    cases hi
    rw [e] at ht
    exact absurd ht (by decide)
  · refine Triple.bind (Q := fun _ => Announced) (Triple.bind (Q := fun _ => Announced) ?_ fun _ => ?_)
      fun _ => ?_
    · exact watches_reapEnded.weaken fun _ _ => trivial
    · refine .ite (fun _ => ?_) fun _ => triple_pure fun _ => id
      refine hS.loop.checkAll.triple.bind fun _ => keeps_get.triple.bind fun _ => ?_
      exact .ite (fun _ => triple_pure fun _ => id) fun _ => triple_pure fun _ => id
    · exact .ite (fun _ => triple_pure fun _ => id) fun _ => triple_pure fun _ => id
  · refine Triple.weaken (P := Announced) (fun k hk => hk fun i hi => Option.some.inj hi ▸ hc) ?_
    exact (hS.logProgram _ _).triple.bind fun _ => triple_pure fun _ => id

/-! ## The program -/

/-- A wait for the next event starts and ends with everything announced. -/
theorem watches_awaitEvent (last : Calendar.Instant) (deadline : Option Nat) :
    Watches Announced (awaitEvent sup last deadline : Operation r _) fun _ => Announced := by
  refine (watches_awaitSignal deadline).bind fun info => ?_
  cases info with
  | none => exact triple_pure fun k hk => hk nofun
  | some info =>
    refine (watches_handleSignal info).bind fun exit => ?_
    cases exit <;> exact triple_pure fun _ => id

theorem watches_loopOnce (last : Calendar.Instant) :
    Watches Announced (loopOnce sup last : Operation r _) fun _ => Announced := by
  have hS := lasting_announced.serves (r := r) sup
  refine .ite (fun _ => (hS.loop.checkElapsed last).triple.bind fun last => ?_) fun _ => watches_awaitEvent _ _
  exact hS.nextMinute.triple.bind fun d => watches_awaitEvent _ _

/-- The main loop starts and ends with everything announced, however many rounds it has. -/
theorem watches_mainLoop : Watches Announced (mainLoop sup : Operation r LoopExit) fun _ => Announced := by
  have hS := lasting_announced.serves (r := r) sup
  refine hS.currentMinute.triple.bind fun last => .iterate (fun last => ?_) last
  exact (watches_loopOnce last).imp (fun _ => id) fun v _ hk => by cases v <;> exact hk

/-- So does the stopping of services. -/
theorem watches_stopServices (deadline : Nat) :
    Watches Announced (stopServices deadline : Operation r Bool) fun _ => Announced := by
  have hS := lasting_announced.serves (r := r) ⟨[]⟩
  refine (hS.logProgram _ _).triple.bind fun _ => (hS.stopAll deadline).triple.bind fun stopped => ?_
  refine .ite (fun _ => triple_pure fun _ => id) fun _ => (hS.logProgram _ _).triple.bind fun _ => ?_
  refine .repeatUntil (keeps_get.triple.bind fun b => .ite (fun _ => triple_pure fun _ => id) fun _ => ?_)
  refine (watches_awaitSignal _).bind fun info => ?_
  cases info with
  | none =>
    refine Triple.weaken (P := Announced) (fun k hk => hk nofun) ?_
    exact (hS.logProgram _ _).triple.bind fun _ => triple_pure fun _ => id
  | some info =>
    refine (watches_logSignal info).bind fun _ => .ite (fun _ => ?_) fun hc => ?_
    · refine Triple.weaken (P := fun _ => True) (fun _ _ => trivial) ?_
      exact watches_reapEnded.bind fun _ => triple_pure fun _ => id
    · exact triple_pure fun k hk => hk fun i hi => Option.some.inj hi ▸ hc

/-- So does a round of ending all processes. -/
theorem watches_killOnce (target : Pid) (d : Nat × Bool) :
    Watches Announced (killOnce target d : Operation r _) fun _ => Announced := by
  have hS := lasting_announced.serves (r := r) ⟨[]⟩
  obtain ⟨deadline, killed⟩ := d
  refine (watches_awaitSignal _).bind fun info => ?_
  cases info with
  | none =>
    refine Triple.weaken (P := Announced) (fun k hk => hk nofun) ?_
    refine (hS.logProgram _ _).triple.bind fun _ => (lasting_announced.keeps_send target _).triple.bind fun sent =>
      .ite (fun _ => ?_) fun _ => ?_
    · exact (hS.logProgram _ _).triple.bind fun _ => triple_pure fun _ => id
    · refine hS.reapEnded.triple.bind fun _ => .ite (fun _ => triple_pure fun _ => id) fun _ => ?_
      exact (hS.ask .monotonic trivial).triple.bind fun _ => triple_pure fun _ => id
  | some info =>
    refine (watches_logSignal info).bind fun _ => .ite (fun _ => ?_) fun hc => ?_
    · refine Triple.weaken (P := fun _ => True) (fun _ _ => trivial) ?_
      refine watches_reapEnded.bind fun _ => .ite (fun _ => triple_pure fun _ => id) fun _ => ?_
      exact triple_pure fun _ => id
    · exact triple_pure fun k hk => hk fun i hi => Option.some.inj hi ▸ hc

/-- So does the ending of all processes. -/
theorem watches_endProcesses (target : Pid) (deadline : Nat) :
    Watches Announced (endProcesses target deadline : Operation r Bool) fun _ => Announced := by
  have hS := lasting_announced.serves (r := r) ⟨[]⟩
  refine (hS.logProgram _ _).triple.bind fun _ => (lasting_announced.keeps_send _ _).triple.bind fun sent =>
    .ite (fun _ => ?_) fun _ => ?_
  · exact (hS.logProgram _ _).triple.bind fun _ => triple_pure fun _ => id
  · refine .iterate (fun d => ?_) _
    exact (watches_killOnce _ d).imp (fun _ => id) fun v _ hk => by cases v <;> exact hk

/-- So does the shutdown. -/
theorem watches_shutdown (p : Plan) :
    Watches Announced (shutdown p : Operation r Outcome) fun _ => Announced := by
  have hS := lasting_announced.serves (r := r) ⟨[]⟩
  refine (hS.ask .monotonic trivial).triple.bind fun now => (watches_stopServices _).bind fun graceful => ?_
  refine (watches_endProcesses _ _).bind fun killed => ?_
  have hcollect : Keeps (watch Announced (Board r)) (Supervisor.collect (-1)) :=
    hS.collect (lasting_announced.ask (.wait (-1)) nofun nofun)
  refine hcollect.triple.bind fun c => ?_
  obtain ⟨gone, status | status⟩ := c
  · exact triple_pure fun _ => id
  · exact (hS.logProgram _ _).triple.bind fun _ => triple_pure fun _ => id

/-- So does the whole program. -/
theorem watches_run (p : Plan) : Watches Announced (run sup p : Operation r Outcome) fun _ => Announced := by
  have hS := lasting_announced.serves (r := r) sup
  refine (hS.ask .processId trivial).triple.bind fun pid => (hS.logProgram _ _).triple.bind fun _ => ?_
  refine (hS.bootstrap p).triple.bind fun _ => watches_mainLoop.bind fun exit => ?_
  have hrest : Watches Announced (do
      let outcome ← shutdown p
      logProgram .info ("Exiting (" ++ outcome.name ++ " shutdown).")
      return outcome : Operation r Outcome) fun _ => Announced :=
    (watches_shutdown p).bind fun _ => (hS.logProgram _ _).triple.bind fun _ => triple_pure fun _ => id
  cases exit <;> exact (hS.logProgram _ _).triple.bind fun _ => hrest

/-- A mask that blocks `SIGCHLD` lets no notice through. -/
theorem keeps_watch_setMask {mask : SignalSet} (hm : Signal.child ∈ mask) :
    Keeps (watch Announced σ) (ask (.setMask mask)) :=
  keeps_watch_ask Announced.drift nofun fun hk h => hk.setMask h hm

theorem keeps_watch_set {τ : Type} (t : τ) : Keeps (watch P τ) (set t) :=
  fun _ _ _ _ hk => assures_set.mpr ⟨hk, trivial⟩

/-- The mask is restored when the supervisor is gone, and nothing waits after that. -/
theorem keeps_release : Keeps (watch (fun _ => True) Supervisor.Slot) sup.release := by
  have hset : Keeps (watch (fun _ => True) Supervisor.Slot) (ask (.setMask sup.savedMask)) :=
    keeps_watch_ask (fun _ _ => trivial) nofun fun _ _ => trivial
  refine hset.bind fun answer => ?_
  cases answer with
  | error e => exact (lasting_true.log _ _ _).bind fun _ => keeps_watch_set _
  | ok mask => exact keeps_watch_set _

/-- The mask of a supervisor blocks everything. -/
theorem watches_acquire : Watches Announced Supervisor.acquire fun _ => Announced := by
  refine keeps_get.triple.bind fun slot => .ite (fun _ => triple_throw.bind fun _ => triple_of_false) fun _ => ?_
  refine (keeps_watch_set _).triple.bind fun _ => ?_
  refine (keeps_watch_setMask (show Signal.child ∈ Signal.all by decide)).triple.bind fun answer => ?_
  cases answer with
  | error e => exact (keeps_watch_set _).triple.bind fun _ => triple_throw
  | ok mask =>
    have htrap : ∀ s, Keeps (watch Announced Supervisor.Slot) (Supervisor.trapSignal s) := fun s => by
      refine (lasting_announced.ask (.trapSignal s) nofun nofun).bind fun answer => ?_
      cases answer with
      | error e => exact keeps_throw trivial
      | ok _ => exact keeps_pure _
    refine (keeps_forM _ htrap).attempt.triple.bind fun res => ?_
    cases res with
    | error e =>
      refine Triple.bind (Q := fun _ _ => True) ?_ fun _ => triple_throw
      exact keeps_release.triple.weaken fun _ _ => trivial
    | ok _ => exact (lasting_announced.log _ _ _).triple.bind fun _ => triple_pure fun _ => id

/-- All of this together, from the creation of the supervisor on. -/
theorem watches_runSupervised (r : Registry) (p : Plan) :
    Watches Announced (CommandLine.runSupervised r p : Action σ Outcome) fun _ _ => True := by
  refine (watches_acquire.isolated _).bind fun (acquired, slot) => ?_
  refine (triple_ofExcept fun sup k h hk => hk sup h).bind fun sup => ?_
  refine ((watches_run p).isolated _).bind fun (outcome, b) => ?_
  refine Triple.weaken (P := fun _ => True) (fun _ _ => trivial) ?_
  exact (keeps_release.triple.isolated slot).bind fun _ => triple_ofExcept fun _ _ _ _ => trivial

/-- If ended children are announced when the supervisor is created, they are at every moment in which the
program waits for a signal, in all its life. -/
theorem runSupervised_announced (r : Registry) (p : Plan) (s : σ) {k : Signalled} (hk : k.Announced) :
    Always Signalled.world (CommandLine.runSupervised r p) s k fun _ k moment _ =>
      ∀ timeout, moment = .asking (.awaitSignal timeout) →
        ∀ child, k.children.HasEnded child → Signal.child ∈ k.pending := by
  refine always_of_assures (fun n => watches_runSupervised r p hk) (fun h k c s hc timeout e child hp => ?_)
    fun _ _ _ _ _ _ _ => nofun
  exact hc timeout (Moment.asking.inj e) ⟨child, hp⟩

/-- An orphan with the given number that has ended, and the notice of it. -/
def orphaned (p : Pid) (hp : 0 < p) : Signalled :=
  ⟨Children.none.insert p hp ⟨0, some (.exited 0)⟩, {Signal.child}⟩

/-- An orphan that had ended before the supervisor was there. -/
theorem runSupervised_announced_orphaned : (orphaned 7 (by decide)).Announced ∧
    Always Signalled.world (CommandLine.runSupervised Registry.empty { settings := {} }) ()
      (orphaned 7 (by decide)) fun _ k moment _ =>
      ∀ timeout, moment = .asking (.awaitSignal timeout) →
        ∀ child, k.children.HasEnded child → Signal.child ∈ k.pending :=
  have h : (orphaned 7 (by decide)).Announced := fun _ => rfl
  ⟨h, runSupervised_announced _ _ _ h⟩

end ContainerInit.Supervision
