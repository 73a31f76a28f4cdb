import ContainerInit.Config.Basic
import ContainerInit.Proofs.Supervision.Ownership
import ContainerInit.Proofs.Supervision.Retry

/-! # Waiting for somebody

The loop waits for signals without a deadline where no service waits for times of day.  What may end such a wait
is the end of a child, so that there should be one.  After the start of the system that is a service: each of
them starts with the system then.  And a round of the loop goes on only if a child was there that had not ended
when children were collected, or if a service runs after the restart sweep.

Both arguments need that a service which holds a process holds a child, and so that no wait loses one.  In the
kernel as it is a wait may do that, but not here.  The loop waits only for a child that it has looked at before,
and goes on only if the look has succeeded; so the end of that child can be reported, and the wait for it will
tell as much.  This is what `Attended` says besides: every wait is for a child that has ended in a way that can be
reported.  The proofs are about the kernel in which nothing is lost, and what they assure of the calls takes the
result over to the other one (`mainLoop_attended`).

A registry without services is beyond all this.  It can be read and started, and the loop over it waits for nobody
(`mainLoop_unattended`). -/

namespace ContainerInit.Supervision

open ContainerInit.Action Kernel Relation

variable {r : Registry} {sup : Supervisor} {n : Nat} {h : History (Board r)} {k k' : Children} {b : Board r}
  {i : r.Id} {p : Pid} {C : Prop} {α : Type}

/-- A wait for signals without a deadline comes only while there is a child, and a wait for children only for one
that has ended in a way that can be reported. -/
def Attended (k : Children) (c : Kernel.Call) : Prop :=
  (c = .awaitSignal none → ∃ p, k.Has p) ∧ ∀ target, c = .wait target → k.HasReportable target

abbrev attended (r : Registry) : Asks uncollected (Board r) := fun _ k c _ => Attended k c

theorem attended_of_ne {c : Kernel.Call} (hs : ∀ timeout, c ≠ .awaitSignal timeout)
    (hw : ∀ target, c ≠ .wait target) : Attended k c :=
  ⟨fun e => absurd e (hs none), fun target e => absurd e (hw target)⟩

theorem Attended.wait (hp : k.HasReportable p) : Attended k (.wait p) := by
  refine ⟨nofun, ?_⟩
  rintro _ ⟨⟩
  exact hp

/-- A wait of this kind does not lose a child. -/
theorem Attended.not_loses {c : Kernel.Call} {a : Kernel.signature.Answer c} (hc : Attended k c)
    (ha : k.answers c a k') : ¬ Loses k c a k' := by
  intro hl
  cases c with
  | wait target =>
    obtain ⟨found, hf, rfl⟩ := ha
    rcases hf.of_hasReportable (hc.2 target rfl) with ⟨t, -, rfl⟩ | ⟨e, rfl, rfl, -⟩
    · exact hl
    · exact hl rfl
  | _ => exact hl

/-! ## Operations that wait for nothing -/

/-- If `C` holds there is a child. -/
def crowded (r : Registry) (C : Prop) : Regime uncollected (Board r) where
  asks := attended r
  inv _ k _ := C → ∃ p, Children.Has k p
  errors _ := True

/-- Where nothing is waited for, whoever is a child stays one. -/
theorem keeps_crowded_ask {c : Kernel.Call} (hs : ∀ timeout, c ≠ .awaitSignal timeout)
    (hw : ∀ target, c ≠ .wait target) : Keeps (crowded r C) (Action.ask c) := by
  intro n h k b hc
  refine assures_ask.mpr fun (k₁ : Children) d => ⟨attended_of_ne hs hw, fun a k₂ ha => ⟨fun h => ?_, trivial⟩⟩
  obtain ⟨p, hp⟩ := hc h
  have hp : k₁.Has p := hp.drifts d
  obtain ⟨-, ha, -⟩ := ha
  by_cases hf : ∃ child, c = .fork child
  · obtain ⟨child, rfl⟩ := hf
    cases a with
    | error e =>
      obtain rfl : k₂ = k₁ := ha
      exact ⟨p, hp⟩
    | ok p' =>
      obtain ⟨_, -, _, rfl⟩ := ha
      exact ⟨p, hp.insert⟩
  · obtain rfl := Children.eq_of_answers (fun child e => hf ⟨child, e⟩) hw ha
    exact ⟨p, hp⟩

theorem admits_crowded : Admits (crowded r C) where
  errors _ _ _ := trivial
  ask c hc := keeps_crowded_ask (by rintro timeout rfl; exact hc) (by rintro target rfl; exact hc)

/-- A start makes more children, or none. -/
theorem keeps_crowded_start (sup : Supervisor) (i : r.Id) : Keeps (crowded r C) (start sup i) := by
  refine keeps_start (fun _ _ _ _ => trivial) (fun i => admits_crowded.spawnService i ?_) i
  intro n h k b hi _
  refine (admits_crowded.spawn sup (keeps_crowded_ask nofun nofun) (fun _ _ => trivial) hi).imp ?_
  intro h k res b hm
  cases res with
  | ok _ => exact hm.1
  | error e => exact hm

theorem servesStarts_crowded (sup : Supervisor) : ServesStarts (crowded r C) sup :=
  admits_crowded.servesStarts (keeps_crowded_start sup)

/-! ## A child is collected -/

/-- A child whose end can be reported is waited for until the wait is not interrupted. -/
theorem assures_attended_collect (hp : k.HasReportable p) :
    Assures uncollected (attended r) (Supervisor.collect p) (fun _ _ _ b' => b' = b) n h k b := by
  refine assures_iterate (fun _ (k : Children) _ b' => b' = b ∧ k.HasReportable p) ⟨rfl, hp⟩ ?_
  rintro h (k : Children) last b' ⟨rfl, hp⟩
  refine assures_bind.mpr (assures_ask.mpr fun (k₁ : Children) d => ?_)
  have hp : k₁.HasReportable p := hp.drifts d
  refine ⟨.wait hp, fun answer k₂ ⟨_, ⟨found, hf, hk⟩, _⟩ => ?_⟩
  subst hk
  rcases hf.of_hasReportable hp with ⟨t, rfl, rfl⟩ | ⟨e, rfl, rfl, he⟩
  · dsimp only
    split
    case h_1 heq => cases t <;> cases heq
    case h_2 status _ heq =>
      obtain rfl := Except.ok.inj heq
      refine assures_bind.mpr (assures_ask.mpr fun k₃ d₃ => ⟨attended_of_ne nofun nofun, fun _ k₄ ha => ?_⟩)
      dsimp only
      rw [if_pos Termination.pid?_status]
      rfl
    case h_3 heq => cases heq
  · dsimp only
    rw [if_neg he]
    split
    · exact ⟨rfl, hp⟩
    · rfl

/-- After the child has been collected there is only the log to be written to. -/
theorem assures_attended_reapOne (hp : k.HasReportable p) :
    Assures uncollected (attended r) (reapOne p) (fun _ _ _ _ => True) n h k b := by
  have hlog {α : Type} {x : Operation r α} (hx : Keeps (crowded r False) x) {h k b} :
      Assures uncollected (attended r) x (fun _ _ _ _ => True) n h k b := (hx False.elim).imp fun _ _ _ _ _ => trivial
  refine assures_bind.mpr (assures_get.mpr ?_)
  dsimp only
  cases ho : b.owner? p with
  | none =>
    refine (assures_attended_collect hp).bind (fun h k c b _ => ?_) fun _ _ _ _ _ => trivial
    exact hlog (admits_crowded.ask _ (routine_log_of_source (by decide)))
  | some i =>
    have hi : b[i].pid = some p := by simpa using List.find?_some ho
    have hcheck : Assures uncollected (attended r) (checkProcess i) (fun _ _ _ _ => True) n h k b := by
      refine assures_bind.mpr (assures_stateOf.mpr ?_)
      dsimp only
      rw [hi]
      refine (assures_attended_collect hp).bind (fun h k c b _ => ?_) fun _ _ _ _ _ => trivial
      split
      · trivial
      · refine hlog (admits_crowded.recordEnd i p c.status (fun _ _ => ?_) fun _ _ _ _ => id)
        exact keeps_crowded_ask nofun nofun
    refine hcheck.bind (fun h k running b _ => ?_) fun _ _ _ _ _ => trivial
    split <;> trivial

/-! ## The loop -/

/-- Services own their processes, and if `C` holds there is a child. -/
def accompanied (r : Registry) (C : Prop) : Regime uncollected (Board r) where
  asks := attended r
  inv h k b := Owned False h k b ∧ (C → ∃ p, Children.Has k p)
  errors _ := True

/-- What waits for nothing is kept as far as processes are owned. -/
theorem keeps_accompanied {x : Operation r α} (hx : Keeps (crowded r C) x) (hx' : Keeps (ownership r False) x) :
    Keeps (accompanied r C) x := by
  rintro n h k b ⟨hb, hc⟩
  refine ((hx hc).and (hx' hb)).imp ?_
  rintro h k res b ⟨⟨hc, -⟩, hb, -⟩
  refine ⟨⟨hb, hc⟩, ?_⟩
  cases res <;> trivial

theorem keeps_accompanied_ask {c : Kernel.Call} (hf : ∀ child, c ≠ .fork child) (hw : ∀ target, c ≠ .wait target)
    (hl : ∀ name pid, c ≠ .log (lossRecord name pid)) (hs : c = .awaitSignal none → C) :
    Keeps (accompanied r C) (Action.ask c) := by
  rintro n h k b ⟨hb, hc⟩
  refine assures_ask.mpr fun (k₁ : Children) d => ?_
  have hc₁ : C → ∃ p, k₁.Has p := fun h => (hc h).imp fun p hp => hp.drifts d
  refine ⟨⟨fun e => hc₁ (hs e), fun target e => absurd e (hw target)⟩, fun a k₂ ha => ?_⟩
  have hb₂ := (assures_ask.mp (keeps_ask_of_ne (n := n) c hf hw hl hb) k₁ d).2 a k₂ ha
  obtain rfl := Children.eq_of_answers hf hw ha.2.1
  exact ⟨⟨hb₂.1, hc₁⟩, trivial⟩

/-- Both parts of the regime are kept by the steps that all operations are made of. -/
theorem admits_accompanied : Admits (accompanied r C) where
  errors _ _ _ := trivial
  ask c hc := by
    refine keeps_accompanied_ask ?_ ?_ ?_ ?_
    · rintro child rfl; exact hc
    · rintro target rfl; exact hc
    · rintro name pid rfl; exact hc name pid rfl
    · rintro rfl; exact hc.elim

/-- If reaping does not find the system deserted, somebody is there. -/
theorem Owned.assures_reap (hb : Owned False h k b) (sup : Supervisor) :
    Assures uncollected (attended r) (reap sup true)
      (yields fun h k found b => Owned False h k b ∧ (found = false → ∃ p, Children.Has k p)) n h k b := by
  have hended : Assures uncollected (attended r) reapEnded
      ((accompanied r False).ends fun _ (k' : Children) found _ => found = false → ∃ p, k'.Has p) n h k b := by
    refine assures_reapEnded admits_accompanied (fun p n h k b hi hp => ?_) ⟨hb, False.elim⟩
    refine ((assures_attended_reapOne hp).and (hi.1.assures_reapOne hp.hasEnded)).imp ?_
    rintro h k res b ⟨-, hb, -⟩
    refine ⟨⟨hb, False.elim⟩, ?_⟩
    cases res <;> trivial
  have hsweep : ∀ {C : Prop}, Keeps (accompanied r C) (checkAll sup) := fun {C} =>
    keeps_accompanied (servesStarts_crowded sup).checkAll (servesAll_ownership sup).loop.checkAll
  refine hended.bind ?_ fun h k e b _ => trivial
  rintro h k found b ⟨⟨hb, -⟩, hf⟩
  refine (hsweep (C := found = false) ⟨hb, hf⟩).bind ?_ fun h k e b _ => trivial
  rintro h k _ b ⟨⟨hb, hf⟩, -⟩
  refine assures_bind.mpr (assures_get.mpr ?_)
  dsimp only
  split
  · rename_i hrun
    obtain ⟨i, p, hi⟩ := Board.exists_pid_of_anyRunning hrun
    exact ⟨hb, fun _ => ⟨p, hb.has hi⟩⟩
  · exact ⟨hb, hf⟩

/-- The loop goes on after a signal only if somebody is there, or if a service waits for times of day. -/
theorem assures_handleSignal (sup : Supervisor) (info : Kernel.SignalInfo)
    (hi : (accompanied r (r.hasTimed = false)).inv h k b) :
    Assures uncollected (attended r) (handleSignal sup info)
      (yields fun h k exit b => exit = none → (accompanied r (r.hasTimed = false)).inv h k b) n h k b := by
  refine ((admits_accompanied.logProgram _ _) hi).bind ?_ fun _ _ _ _ _ => trivial
  rintro h k _ b ⟨hi, -⟩
  split
  · exact assures_pure.mpr nofun
  split
  · refine (hi.1.assures_reap sup).bind_yields ?_
    rintro h k found b ⟨hb, hf⟩
    split
    · exact assures_pure.mpr nofun
    · rename_i hn
      refine assures_pure.mpr fun _ => ⟨hb, fun ht => hf ?_⟩
      simpa [ht] using hn
  · refine ((admits_accompanied.logProgram _ _) hi).bind ?_ fun _ _ _ _ _ => trivial
    rintro h k _ b ⟨hi, -⟩
    exact assures_pure.mpr fun _ => hi

/-- The wait for a signal may do without a deadline while somebody is there. -/
theorem keeps_accompanied_awaitSignal {deadline : Option Nat} (hd : deadline = none → C) :
    Keeps (accompanied r C) (Supervisor.awaitSignal deadline : Operation r _) := by
  have htake : ∀ timeout : Option Nat, (timeout = none → C) →
      Keeps (accompanied r C) (Supervisor.takeSignal timeout : Operation r _) := by
    intro timeout ht
    have hask : Keeps (accompanied r C) (Action.ask (.awaitSignal timeout)) :=
      keeps_accompanied_ask nofun nofun nofun fun e => ht (Kernel.Call.awaitSignal.inj e)
    refine hask.bind fun answer => ?_
    cases answer with
    | ok info => exact keeps_pure _
    | error e =>
      exact .ite (fun _ => keeps_pure _) fun _ => .ite (fun _ => keeps_pure _) fun _ => keeps_throw trivial
  refine .repeatUntil fun n h k b hi => ?_
  cases deadline with
  | none => exact htake none hd hi
  | some d =>
    refine assures_bind.mpr ((admits_accompanied.ask .monotonic trivial).ask_bind hi fun now h k hi => ?_)
    exact assures_pure.mpr (htake (some (d - now)) nofun hi)

/-- After a signal the loop goes on only in company. -/
theorem assures_awaitEvent (sup : Supervisor) (last : Calendar.Instant) {deadline : Option Nat}
    (hd : deadline = none → r.hasTimed = false) (hi : (accompanied r (r.hasTimed = false)).inv h k b) :
    Assures uncollected (attended r) (awaitEvent sup last deadline)
      (yields fun h k round b => ∀ last, round = .again last →
        (accompanied r (r.hasTimed = false)).inv h k b) n h k b := by
  refine (keeps_accompanied_awaitSignal hd hi).bind ?_ fun _ _ _ _ _ => trivial
  rintro h k info b ⟨hi, -⟩
  cases info with
  | none => exact assures_pure.mpr fun _ _ => hi
  | some info =>
    refine (assures_handleSignal sup info hi).bind_yields ?_
    intro h k exit b hexit
    cases exit with
    | none => exact assures_pure.mpr fun _ _ => hexit rfl
    | some exit => exact assures_pure.mpr nofun

/-- A round of the loop leaves it to the next one to find somebody there. -/
theorem assures_loopOnce (sup : Supervisor) (last : Calendar.Instant)
    (hi : (accompanied r (r.hasTimed = false)).inv h k b) :
    Assures uncollected (attended r) (loopOnce sup last)
      (yields fun h k round b => ∀ last, round = .again last →
        (accompanied r (r.hasTimed = false)).inv h k b) n h k b := by
  unfold loopOnce
  split
  · have helapsed : Keeps (accompanied r (r.hasTimed = false)) (checkElapsed sup last) :=
      keeps_accompanied ((servesStarts_crowded sup).checkElapsed last) ((servesAll_ownership sup).loop.checkElapsed last)
    refine (helapsed hi).bind ?_ fun _ _ _ _ _ => trivial
    rintro h k last b ⟨hi, -⟩
    refine (admits_accompanied.nextMinute hi).bind ?_ fun _ _ _ _ _ => trivial
    rintro h k minute b ⟨hi, -⟩
    exact assures_awaitEvent sup last nofun hi
  · rename_i ht
    exact assures_awaitEvent sup last (fun _ => Bool.eq_false_iff.mpr ht) hi

/-- The loop, by its rounds. -/
theorem assures_mainLoop (sup : Supervisor) (hi : (accompanied r (r.hasTimed = false)).inv h k b) :
    Assures uncollected (attended r) (mainLoop sup : Operation r LoopExit) (fun _ _ _ _ => True) n h k b := by
  refine (admits_accompanied.currentMinute hi).bind ?_ fun _ _ _ _ _ => trivial
  rintro h k last b ⟨hi, -⟩
  refine assures_iterate (fun h k _ b => (accompanied r (r.hasTimed = false)).inv h k b) hi ?_
  intro h k last b hi
  refine (assures_loopOnce sup last hi).imp fun h k round b hm => ?_
  rcases round with e | last | exit
  · trivial
  · exact hm last rfl
  · trivial

/-! ## The start of the system -/

/-- A service that has been started runs, and all that ran still do. -/
theorem assures_start_running (sup : Supervisor) (i : r.Id) {h : History (Board r)} {b : Board r} :
    Assures (.anything _) (fun _ _ _ _ => True) (start sup i) (yields fun _ _ _ b' =>
      b'.isRunning i = true ∧ ∀ j, b.isRunning j = true → b'.isRunning j = true) n h () b := by
  refine (assures_start sup i).imp ?_
  rintro h' _ res b' ⟨fs, -, hs⟩
  cases res with
  | error e => trivial
  | ok _ =>
    cases hs with
    | planned hp hc =>
      cases hc with
      | complete is pid =>
        refine ⟨isRunning_withStarted_of_mem (List.mem_of_getLast? (Board.isPlan_of_plan_eq_ok hp).last), ?_⟩
        intro j hj
        rw [Board.isRunning, getElem_withStarted, if_neg (by simp [hj])]
        exact hj

/-- Unless it fails, every service that starts with the system runs after its start. -/
theorem assures_bootServices_running (sup : Supervisor) {h : History (Board r)} {b : Board r} :
    Assures (.anything _) (fun _ _ _ _ => True) (bootServices sup) (yields fun _ _ _ b' => ∀ i : r.Id,
      (r.service i).schedule.onBoot = true → b'.isRunning i = true) n h () b := by
  refine assures_forM (W := .anything _) (fun done _ _ b => ∀ i ∈ done, b.isRunning i = true) _ nofun ?_ ?_
  · intro h _ b done i _ hd
    refine assures_bind.mpr (assures_ask.mpr fun _ _ => ⟨trivial, fun _ _ _ => ?_⟩)
    refine (assures_start_running sup i).imp fun h k res b' hm => ?_
    cases res with
    | error e => trivial
    | ok _ =>
      intro j hj
      rcases List.mem_append.mp hj with hj | hj
      · exact hm.2 j (hd j hj)
      · exact List.mem_singleton.mp hj ▸ hm.1
  · exact fun h _ b hd i hi => hd i (List.mem_filter.mpr ⟨List.mem_finRange i, hi⟩)

theorem assures_bootstrap_running (sup : Supervisor) (p : Plan) {h : History (Board r)} {b : Board r} :
    Assures (.anything _) (fun _ _ _ _ => True) (bootstrap sup p) (yields fun _ _ _ b' => ∀ i : r.Id,
      (r.service i).schedule.onBoot = true → b'.isRunning i = true) n h () b := by
  unfold bootstrap
  cases p.settings.workdir with
  | none => exact assures_then fun h _ _ b => assures_bootServices_running sup
  | some path =>
    exact assures_then fun h _ _ b => assures_then fun h _ _ b => assures_bootServices_running sup

/-- A service that waits for no time of day starts with the system. -/
theorem onBoot_of_hasTimed_eq_false (ht : r.hasTimed = false) (i : r.Id) :
    (r.service i).schedule.onBoot = true := by
  have hi := List.any_eq_false.mp ht (r.service i) (List.getElem_mem i.isLt)
  have hreboot : ∀ e ∈ (r.service i).schedule.expressions, e.reboot = true := by
    simpa [Cron.Schedule.hasTimed, Cron.Schedule.timed] using hi
  rw [Cron.Schedule.onBoot]
  cases he : (r.service i).schedule.expressions with
  | nil => rfl
  | cons e es =>
    rw [he] at hreboot
    rw [List.any_cons, hreboot e (.head _)]
    rfl

/-- The start of the system leaves somebody there, unless every service waits for times of day or there is
none. -/
theorem Owned.assures_bootstrap (hb : Owned False h k b) (hne : r.services ≠ []) (sup : Supervisor) (p : Plan) :
    Assures uncollected (attended r) (bootstrap sup p)
      (yields fun h k _ b => (accompanied r (r.hasTimed = false)).inv h k b) n h k b := by
  have hboot : Keeps (accompanied r False) (bootstrap sup p) :=
    keeps_accompanied (admits_crowded.bootstrap (fun _ _ => trivial) (keeps_crowded_start sup) p)
      ((servesAll_ownership sup).bootstrap p)
  have hrunning : Assures uncollected (fun _ _ _ _ => True) (bootstrap sup p) (yields fun _ _ _ b' => ∀ i : r.Id,
      (r.service i).schedule.onBoot = true → b'.isRunning i = true) n h k b :=
    Assures.comap (W := .anything _) (f := fun _ => ()) (fun _ => .refl) (fun _ _ => trivial)
      (assures_bootstrap_running sup p)
  refine ((hboot ⟨hb, False.elim⟩).and hrunning).imp ?_
  rintro h k res b ⟨⟨⟨hb, -⟩, -⟩, hrun⟩
  cases res with
  | error e => trivial
  | ok _ =>
    refine ⟨hb, fun ht => ?_⟩
    have hpos : 0 < r.services.length := List.length_pos_of_ne_nil hne
    have hi := hrun ⟨0, hpos⟩ (onBoot_of_hasTimed_eq_false ht _)
    obtain ⟨p, hp⟩ := Board.isRunning_eq_true_iff.mp hi
    exact ⟨p, hb.has hp⟩

/-- In a kernel that keeps its children until they are collected: if a registry that is not empty has been
started, the loop over it waits for a signal without a deadline only while there is a child, alive or waiting to
be collected. -/
theorem mainLoop_attended (sup : Supervisor) (p : Plan) (hne : r.services ≠ []) {b : Board r} (hd : Distinct b)
    (hheld : ∀ (i : r.Id) q, b[i].pid = some q → k.Has q) :
    Always Children.world (do bootstrap sup p; mainLoop sup) b k fun _ k moment _ =>
      moment = .asking (.awaitSignal none) → ∃ q, Children.Has k q := by
  have hb : Owned False [] k b := owned_of_distinct hd hheld
  have hall : ∀ n, Assures uncollected (attended r) (do bootstrap sup p; mainLoop sup) (fun _ _ _ _ => True) n
      [] k b := fun n =>
    (hb.assures_bootstrap hne sup p).bind (fun h k _ b hi => assures_mainLoop sup hi) fun _ _ _ _ _ => trivial
  -- no wait is for all children or may lose one, so that nothing is left out of what the kernel may answer
  have hanswers : ∀ {h k c b a k'}, attended r h k c b → Children.world.Answers k c a k' →
      uncollected.Answers k c a k' := by
    intro h k c b a k' hc ha
    refine ⟨?_, ha, fun hl => hc.not_loses ha hl⟩
    rintro rfl
    exact absurd (hc.2 (-1) rfl).hasEnded.has.positive (by decide)
  have hworld : ∀ n, Assures Children.world (fun _ k c _ => Attended k c) (do bootstrap sup p; mainLoop sup)
      (fun _ _ _ _ => True) n [] k b := fun n =>
    Assures.comap (W := uncollected) (V := Children.world) (f := id) .single hanswers (hall n)
  refine always_of_assures hworld (fun h k c b hc e => hc.1 (Moment.asking.inj e)) ?_
  rintro h k₁ k₂ a b _ _ ⟨⟩

/-- One service, which starts with the system. -/
theorem mainLoop_attended_single : (Registry.single .never).services ≠ [] ∧
    Owned False [] Children.none (Board.initial : Board (Registry.single .never)) ∧
      Always Children.world (do bootstrap ⟨[]⟩ ⟨{}, -1⟩; mainLoop ⟨[]⟩)
        (Board.initial : Board (Registry.single .never)) Children.none fun _ k moment _ =>
          moment = .asking (.awaitSignal none) → ∃ q, Children.Has k q := by
  have hne : (Registry.single .never).services ≠ [] := List.cons_ne_nil _ _
  have hb : Owned False [] Children.none (Board.initial : Board (Registry.single .never)) := owned_initial Children.none
  exact ⟨hne, hb, mainLoop_attended ⟨[]⟩ ⟨{}, -1⟩ hne hb.distinct fun i q hq => hb.has hq⟩

/-- The text of a configuration without services. -/
def idleText : String := "\x7b\"services\": \x7b\x7d\x7d"

/-- A configuration without services can be read and started, and the loop over it waits although nobody is
there. -/
theorem mainLoop_unattended :
    (Config.parse {} "/etc/cronit.yaml" "/etc" idleText).toOption = some ⟨{}, []⟩ ∧
      ¬ Always Children.world (do bootstrap ⟨[]⟩ ⟨{}, -1⟩; mainLoop ⟨[]⟩)
        (Board.initial : Board Registry.empty) Children.none fun _ k moment _ =>
          moment = .asking (.awaitSignal none) → ∃ q, Children.Has k q := by
  refine ⟨by decide +kernel, fun hall => ?_⟩
  -- only the wall clock is read before the first wait
  obtain ⟨q, _, hq⟩ := hall (n := 1) (.answer (r := (0 : Int)) (.start _ _) rfl) .asking rfl
  cases hq

end ContainerInit.Supervision
