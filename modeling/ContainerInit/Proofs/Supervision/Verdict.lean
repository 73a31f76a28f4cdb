import ContainerInit.Proofs.Supervision.DependencyOrder
import ContainerInit.Proofs.Supervision.Sweep

/-! # What the restart sweep finds

The sweep answers whether it has found or brought every service to run.  It puts that together from what it sees of each
service when its turn comes.  A service that it finds idle and passes over stays so, since nothing that depends on it
can be started either; but one for which no process could be had may still be started for another service later.

## What sessions leave behind

That a service which is passed over stays idle needs something of the board: what a service depends on has been started
once if the service itself has (`Lived`).  It is so in the beginning, and every session keeps it (`servesAll_lived`),
since forks are made in the order of dependencies.

## The answer

`Assessed` compares the answers so far with the board.  If all of them are yes, the services done with run.  If one is
no, its service was found idle at its turn, and what has become of it since is the difference between what the answer
says and what is the case.  `checkAll_true_iff` has it exactly, and the last section an example of a service that runs
although the answer is no. -/

namespace ContainerInit

open Relation

namespace Board

variable {r : Registry} {b b₁ : Board r} {i j : r.Id} {t : Service.State} {as : List (Attempt r)}

/-! ## The boards of sessions -/

/-- The states are sound, and what a service depends on has been started once if the service has. -/
structure Lived (b : Board r) : Prop where
  sound : b.Sound
  grounded : ∀ ⦃i j⦄, r.DependsOn i j → b[i].status ≠ .notStarted → b[j].status ≠ .notStarted

theorem lived_initial : (initial : Board r).Lived where
  sound i := by
    rw [getElem_initial]
    exact Service.State.sound_default
  grounded i j _ h := by
    rw [getElem_initial] at h
    exact absurd rfl h

/-- What has to hold of the new state of a service. -/
theorem Lived.set (hb : b.Lived) (ht : t.Sound) (hs : b[i].status ≠ .notStarted → t.status ≠ .notStarted)
    (hd : t.status ≠ .notStarted → ∀ j, r.DependsOn i j → b[j].status ≠ .notStarted) : (b.set i t).Lived where
  sound j := by
    by_cases hj : i = j
    · subst hj
      rwa [getElem_set_self]
    · rw [getElem_set_ne _ _ hj]
      exact hb.sound j
  grounded j k hjk hj := by
    have hk : b[k].status ≠ .notStarted := by
      by_cases hij : i = j
      · subst hij
        rw [getElem_set_self] at hj
        exact hd hj k hjk
      · rw [getElem_set_ne _ _ hij] at hj
        exact hb.grounded hjk hj
    by_cases hik : i = k
    · subst hik
      rw [getElem_set_self]
      exact hs hk
    · rwa [getElem_set_ne _ _ hik]

/-- A service that has been started once has its dependencies behind it. -/
theorem Lived.set_of_status_ne (hb : b.Lived) (ht : t.Sound) (hi : b[i].status ≠ .notStarted)
    (hs : t.status ≠ .notStarted) : (b.set i t).Lived :=
  hb.set ht (fun _ => hs) fun _ _ hij => hb.grounded hij hi

/-- What a service that has been started requires has been started. -/
theorem Lived.status_ne_of_requires (hb : b.Lived) (h : b.Requires i j) (hi : b[i].status ≠ .notStarted) :
    b[j].status ≠ .notStarted := by
  induction h with
  | refl => exact hi
  | tail _ hjk ih => exact hb.grounded hjk.1 ih

/-- A service that runs has been started. -/
theorem Lived.status_ne_of_isRunning (hb : b.Lived) (hi : b.isRunning i = true) : b[i].status ≠ .notStarted := by
  rw [(hb.sound i).running_iff.mpr hi]
  nofun

theorem Lived.status_ne_of_supplied (hb : b.Lived) (hi : b.Supplied i) (j : r.Id) (hij : r.DependsOn i j) :
    b[j].status ≠ .notStarted := by
  obtain ⟨k, hk, hp⟩ := hi _ hij
  obtain rfl := Registry.name_injective hk
  exact hb.status_ne_of_isRunning (isRunning_eq_true_iff.mpr hp)

/-- An attempt for a service that has its dependencies behind it. -/
theorem Lived.noting (hb : b.Lived) {a : Attempt r} (ha : b.Idle a.service)
    (hd : ∀ j, r.DependsOn a.service j → b[j].status ≠ .notStarted) : (b.noting a).Lived :=
  hb.set (Service.State.sound_tried (hb.sound _) ha _) (fun _ => Service.State.status_tried_ne _ _) fun _ => hd

/-! ## The attempts of a sweep -/

theorem Restartable.of_eq (h : b.Restartable i) (hi : b₁[i] = b[i]) : b₁.Restartable i := by
  rw [Restartable, canRestart, hi]
  exact h

/-- Attempts by the sweep keep it. -/
theorem Lived.notingAll (hb : b.Lived) (h : b.EachTime Restartable as) : (b.notingAll as).Lived := by
  induction as generalizing b with
  | nil => exact hb
  | cons a as ih =>
    exact ih (hb.noting h.1.idle fun j hj => hb.grounded hj h.1.1) h.2

/-- A service that is passed over stays as it is. -/
theorem EachTime.idle_of_not_restartable (h : b.EachTime Restartable as) (hi : b.Idle i)
    (hn : ¬ b.Restartable i) : (b.notingAll as).Idle i ∧ ¬ (b.notingAll as).Restartable i := by
  have hsame : (b.notingAll as)[i] = b[i] := getElem_notingAll_of_notMem (h.notMem Restartable.of_eq hn)
  refine ⟨?_, fun hr => hn (hr.of_eq hsame.symm)⟩
  rw [Idle, hsame]
  exact hi

end Board

namespace Supervision

open ContainerInit.Action Board

variable {r : Registry} {sup : Supervisor} {b b' : Board r} {i : r.Id} {done done' : List r.Id}
  {found found' : List Bool} {as as' : List (Attempt r)} {res : Except Error Unit}

/-! ## Every session keeps its boards in order -/

/-- The condition holds of every board. -/
def onBoards (P : Board r → Prop) : Regime (.anything _) (Board r) where
  asks _ _ _ b := P b
  inv _ _ b := P b
  errors _ := True

section OnBoards

variable {P : Board r → Prop}

theorem keeps_onBoards_ask (c : Kernel.Call) : Keeps (onBoards P) (Action.ask c) :=
  fun _ _ _ _ hb => assures_ask.mpr fun _ _ => ⟨hb, fun _ _ _ => ⟨hb, trivial⟩⟩

theorem admits_onBoards : Admits (onBoards P) := ⟨fun _ _ _ => trivial, fun c _ => keeps_onBoards_ask c⟩

/-- What keeps the board to be this one leaves it alone. -/
theorem assures_of_keeps_eq {α : Type} {x : Operation r α} (hx : Keeps (onBoards (· = b)) x) (hb : P b) {n : Nat}
    {h : History (Board r)} :
    Assures (.anything _) (onBoards P).asks x (fun _ _ _ b' => b' = b) n h () b := by
  refine Assures.imp (Assures.imp_asks (hx (n := n) (h := h) (s := b) rfl) ?_) fun _ _ _ _ => And.left
  rintro _ _ _ _ rfl
  exact hb

end OnBoards

/-- A service is forked for after what it depends on. -/
theorem assures_spawn_lived (i : r.Id) (hb : b.Lived) (hi : b.Supplied i) {n : Nat} {h : History (Board r)} :
    Assures (.anything _) (onBoards Lived).asks (spawn sup i)
      ((onBoards Lived).ends fun _ _ _ b' => b.Furnished i b') n h () b := by
  refine assures_bind.mpr (assures_stateOf.mpr ?_)
  dsimp only
  cases hp : b[i].pid with
  | some p =>
    have hrun := isRunning_eq_true_iff.mpr ⟨p, hp⟩
    exact assures_ask.mpr fun _ _ => ⟨hb, fun _ _ _ => ⟨hb, .inl ⟨rfl, hrun⟩⟩⟩
  | none =>
    have hset : ∀ answer, (b.set i (b[i].tried answer)).Lived := fun answer =>
      hb.noting (a := ⟨i, answer⟩) hp (hb.status_ne_of_supplied hi)
    have hspawn : Keeps (onBoards (· = b)) (sup.spawn (r.service i).argv) :=
      admits_onBoards.spawn sup (keeps_onBoards_ask _) fun _ _ => trivial
    refine assures_bind.mpr (assures_attempt.mpr ((assures_of_keeps_eq hspawn hb).imp ?_))
    rintro h₁ _ (e | p) _ rfl
    · have hb := hset (.error .tryAgain)
      refine assures_bind.mpr (assures_update.mpr (assures_bind.mpr ?_))
      exact assures_ask.mpr fun _ _ => ⟨hb, fun _ _ _ => ⟨hb, trivial⟩⟩
    · have hb := hset (.ok p)
      refine assures_bind.mpr (assures_update.mpr ?_)
      exact assures_ask.mpr fun _ _ => ⟨hb, fun _ _ _ => ⟨hb, .inr ⟨p, rfl⟩⟩⟩

/-- A service that has ended has been started. -/
theorem keeps_lived_checkProcess (i : r.Id) : Keeps (onBoards Lived) (checkProcess i) := by
  intro n h _ b hb
  refine assures_bind.mpr (assures_stateOf.mpr ?_)
  dsimp only
  cases hp : b[i].pid with
  | none => exact keeps_pure _ hb
  | some p =>
    have hi := hb.status_ne_of_isRunning (isRunning_eq_true_iff.mpr ⟨p, hp⟩)
    have hcollect : Keeps (onBoards (· = b)) (Supervisor.collect p) := admits_onBoards.collect (keeps_onBoards_ask _)
    refine (assures_of_keeps_eq hcollect hb).bind ?_ fun _ _ _ _ hm => ⟨hm ▸ hb, trivial⟩
    rintro h₁ _ c b rfl
    split
    · exact keeps_pure _ hb
    · have hcode : Keeps (onBoards (· = b)) (finalCode i p c.status) := by
        rcases finalCode_cases i p c.status with ⟨code, hc⟩ | hc
        · rw [hc]
          exact keeps_pure _
        · rw [hc]
          exact (keeps_onBoards_ask _).bind fun _ => keeps_pure _
      refine (assures_of_keeps_eq hcode hb).bind ?_ fun _ _ _ _ hm => ⟨hm ▸ hb, trivial⟩
      rintro h₂ _ code b rfl
      have hb := hb.set_of_status_ne (Service.State.sound_ended b[i] code) hi (Service.State.status_ended_ne _ _)
      refine assures_bind.mpr (assures_bind.mpr (assures_update.mpr (assures_bind.mpr (assures_stateOf.mpr ?_))))
      exact assures_ask.mpr fun _ _ => ⟨hb, fun _ _ _ => ⟨hb, trivial⟩⟩

theorem servesAll_lived (sup : Supervisor) : ServesAll (onBoards (Lived (r := r))) sup where
  toServesStops := EnduresStops.servesStops {
    toAdmits := admits_onBoards
    terminate := fun _ _ _ _ _ _ _ => keeps_onBoards_ask _
    checkProcess := keeps_lived_checkProcess
    stopRequested := fun i _ _ _ hb hp => hb.set (Service.State.sound_stopRequested (hb.sound i) hp) id
      fun hi _ hij => hb.grounded hij hi
    stopWithdrawn := fun i _ _ _ hb => hb.set (Service.State.sound_stopWithdrawn (hb.sound i)) id
      fun hi _ hij => hb.grounded hij hi
    reapEnded := admits_onBoards.reapEnded fun _ =>
      admits_onBoards.reapOne (fun _ _ => trivial) keeps_lived_checkProcess (keeps_onBoards_ask _) }
  start := keeps_start_of_supplied (fun j _ _ _ _ hb hj => assures_spawn_lived j hb hj) fun _ _ _ _ => trivial
  invalid _ _ := trivial
  kill _ _ := keeps_onBoards_ask _
  awaitSignal _ := keeps_onBoards_ask _
  collectAll := admits_onBoards.collect (keeps_onBoards_ask _)

/-- At every moment of a session, the states are sound, and what a service that has been started depends on has
been started as well. -/
theorem session_lived (sup : Supervisor) (qs : List (Request r)) :
    Always (.anything _) (session sup qs) Board.initial () fun _ _ _ b => b.Lived :=
  always_of_assures (fun _ => (servesAll_lived sup).session qs lived_initial) (fun _ _ _ _ hb => hb)
    fun _ _ _ _ _ hm _ => hm.1

/-! ## The verdict of a sweep -/

/-- A start that the sweep makes attempts only what may be started again. -/
theorem Launched.restartable (hl : Launched b i as res) (hb : b.Lived) (hi : b.Restartable i) :
    b.EachTime Restartable as := by
  refine (hl.eachTime.and (hl.mayStart hb.sound hi.2)).imp fun b₁ j ⟨⟨hj, he, _⟩, _, hm⟩ => ?_
  have hs : b₁[j].status ≠ .notStarted := by
    rw [he]
    exact hb.status_ne_of_requires hj hi.1
  exact ⟨hs, hm.resolve_left hs⟩

/-- What the sweep has come to after the services in `done`, for which it has found what is in `found`. -/
structure Assessed (b : Board r) (done : List r.Id) (found : List Bool) (as : List (Attempt r)) : Prop where
  restartable : b.EachTime Restartable as
  running : found.all id = true → (∀ i ∈ done, (b.notingAll as).isRunning i = true) ∧ ∀ a ∈ as, a.Succeeded
  missing : found.all id = false →
    (∃ i, (b.notingAll as).Idle i ∧ ¬ (b.notingAll as).Restartable i) ∨ ∃ a ∈ as, ¬ a.Succeeded

theorem Assessed.nil : Assessed b [] [] [] := ⟨trivial, fun _ => ⟨nofun, nofun⟩, nofun⟩

theorem Assessed.append (hs : Assessed b done found as)
    (hs' : Assessed (b.notingAll as) done' found' as') :
    Assessed b (done ++ done') (found ++ found') (as ++ as') where
  restartable := eachTime_append.mpr ⟨hs.restartable, hs'.restartable⟩
  running hf := by
    rw [List.all_append, Bool.and_eq_true] at hf
    obtain ⟨hrun, hok⟩ := hs.running hf.1
    obtain ⟨hrun', hok'⟩ := hs'.running hf.2
    rw [notingAll_append]
    refine ⟨fun i hi => ?_, fun a ha => (List.mem_append.mp ha).elim (hok a) (hok' a)⟩
    rcases List.mem_append.mp hi with hi | hi
    · exact isRunning_notingAll_of_isRunning (hrun i hi)
    · exact hrun' i hi
  missing hf := by
    rw [List.all_append, Bool.and_eq_false_iff] at hf
    rw [notingAll_append]
    rcases hf with hf | hf
    -- nothing that comes later can start what has been passed over
    · rcases hs.missing hf with ⟨i, hi, hn⟩ | ⟨a, ha, hn⟩
      · exact .inl ⟨i, hs'.restartable.idle_of_not_restartable hi hn⟩
      · exact .inr ⟨a, List.mem_append_left _ ha, hn⟩
    · rcases hs'.missing hf with hi | ⟨a, ha, hn⟩
      · exact .inl hi
      · exact .inr ⟨a, List.mem_append_right _ ha, hn⟩

/-- A start that has failed leaves something that is idle for good, or an attempt of it has failed. -/
theorem Launched.missing {e : Error} (hl : Launched b i as (.error e)) (he : e.isRecoverable = true) :
    (∃ i, (b.notingAll as).Idle i ∧ ¬ (b.notingAll as).Restartable i) ∨ ∃ a ∈ as, ¬ a.Succeeded := by
  generalize hres : (Except.error e : Except Error Unit) = res at hl
  cases hl with
  | refused hp =>
    cases hres
    cases obstacle_of_plan_eq_error hp with
    | missing hj h => cases he
    | circle hj h => cases he
    | @blocked j k hj hk hblocked =>
      refine .inl ⟨k, isRunning_eq_false_iff.mp hk.2, fun hr : b.Restartable k => ?_⟩
      rw [isBlocked, Service.State.isBlocked, ← canRestart, hr.2] at hblocked
      simp at hblocked
  | planned hp hu =>
    subst hres
    obtain ⟨before, j, errno, -, rfl, -, -⟩ := hu.of_error
    refine .inr ⟨_, List.mem_append_right _ (.head _), fun hs => ?_⟩
    obtain ⟨p, hp⟩ := hs
    cases hp

/-- What the sweep comes to with one service. -/
theorem Looked.assessed {answer : Bool} (hl : Looked b i as (.ok answer)) (hb : b.Lived) :
    Assessed b [i] [answer] as := by
  generalize hres : (Except.ok answer : Except Error Bool) = res at hl
  cases hl with
  | running hi =>
    cases hres
    exact ⟨trivial, fun _ => ⟨List.forall_mem_singleton.mpr hi, nofun⟩, nofun⟩
  | passed hi hn =>
    cases hres
    exact ⟨trivial, nofun, fun _ => .inl ⟨i, hi, hn⟩⟩
  | started hi hl =>
    cases hres
    exact ⟨hl.restartable hb hi, fun _ => ⟨List.forall_mem_singleton.mpr hl.of_ok.1, hl.of_ok.2⟩, nofun⟩
  | failed hi hl he =>
    cases hres
    exact ⟨hl.restartable hb hi, nofun, fun _ => hl.missing he⟩
  | broken hi hl he => cases hres

/-- All turns, by the invariant of those that are over. -/
theorem assures_checkAll_assessed (sup : Supervisor) (hb : b.Lived) {n : Nat} :
    Assures (.anything _) (fun _ _ _ _ => True) (checkAll sup) (yields fun h _ answer b' => ∃ found as,
      Made sup [] b as h b' ∧ Assessed b r.ids found as ∧ answer = found.all id) n [] () b := by
  refine (assures_mapM (W := .anything _) (fun done found h _ b' => ∃ as,
    Made sup [] b as h b' ∧ Assessed b done found as) r.ids ⟨[], .refl, .nil⟩ ?_).bind_yields ?_
  · rintro h _ _ done i found ⟨as, hm, hs⟩
    refine (assures_checkService_looked sup i).yields ?_
    rintro h₁ _ answer b₁ (⟨as', hm', hl⟩ | ⟨_, ⟨⟩, _⟩)
    rw [hm.board_eq] at hl
    exact ⟨as ++ as', hm.trans hm', hs.append (hl.assessed (hb.notingAll hs.restartable))⟩
  · rintro h _ found b' ⟨as, hm, hs⟩
    exact ⟨found, as, hm, hs, rfl⟩

/-- At every moment of every session, whatever the kernel answers: a restart sweep that does not fail answers that
all services run exactly if each of them has a process in the end and no fork of the sweep has failed. -/
theorem checkAll_true_iff (sup : Supervisor) (qs : List (Request r)) :
    Always (.anything _) (session sup qs) Board.initial () fun _ _ _ b => ∀ n h answer b',
      Runs (checkAll sup) n b h (.ok answer) b' → ∃ as, forkCalls h = calls sup b as ∧ b' = b.notingAll as ∧
        (answer = true ↔ (∀ i : r.Id, ∃ p, b'[i].pid = some p) ∧ ∀ a ∈ as, a.Succeeded) := by
  intro n₀ h₀ q k m b hq hm n h answer b' hr
  have hb : b.Lived := session_lived sup qs hq hm
  obtain ⟨found, as, ⟨hcalls, rfl⟩, hs, rfl⟩ := (assures_checkAll_assessed sup hb).runs hr
  refine ⟨as, hcalls, rfl, fun hf => ?_, fun ⟨hrun, hok⟩ => ?_⟩
  · obtain ⟨hrun, hok⟩ := hs.running hf
    exact ⟨fun i => isRunning_eq_true_iff.mp (hrun i (List.mem_finRange i)), hok⟩
  · refine Bool.of_not_eq_false fun hf => ?_
    rcases hs.missing hf with ⟨i, hi, -⟩ | ⟨a, ha, hn⟩
    · exact hi.not_isRunning (isRunning_eq_true_iff.mpr (hrun i))
    · exact hn (hok a ha)

/-- A service, and another one that depends on it, both of which are always restarted. -/
def tandem : Registry where
  services := [⟨"front", ["front"], List.cons_ne_nil _ _, [], .always, ⟨[]⟩⟩,
    ⟨"rear", ["rear"], List.cons_ne_nil _ _, ["front"], .always, ⟨[]⟩⟩]
  ordered := List.pairwise_pair.mpr (show "front" < "rear" by decide)

def front : tandem.Id := ⟨0, Nat.zero_lt_two⟩

def rear : tandem.Id := ⟨1, Nat.one_lt_two⟩

/-- Both services are started, and both have ended. -/
def tandemSession : List (Request tandem) := [.start front, .start rear, .checkProcess front, .checkProcess rear]

/-- Every fork succeeds, and every process ends at once. -/
def endsAtOnce : (q : Kernel.Call × Board tandem) → Kernel.signature.Answer q.1
  | (.fork _, b) => .ok (if b.anyRunning then 101 else 100)
  | (.wait p, _) => .ok (.exited p 1)
  | (c, _) => Kernel.refusal .tryAgain c

/-- Both services have run and ended. -/
def tandemEnded : Board tandem := ⟨#v[⟨.broken, none, 1, false⟩, ⟨.broken, none, 1, false⟩]⟩

/-- The first service runs again. -/
def tandemHalf : Board tandem := ⟨#v[⟨.running, some 100, 1, false⟩, ⟨.broken, none, 1, false⟩]⟩

/-- Both services run again. -/
def tandemAgain : Board tandem := ⟨#v[⟨.running, some 100, 1, false⟩, ⟨.running, some 101, 1, false⟩]⟩

theorem exists_runs_session_tandem :
    ∃ h, Runs (session ⟨[]⟩ tandemSession) 1 Board.initial h (.ok [.ok (), .ok (), .ok (), .ok ()]) tandemEnded :=
  (Dialogue.exists_runs_of_answered (f := endsAtOnce) (by cbv)).imp fun _ => And.left

/-- Another start of the first service comes with that of the second. -/
theorem exists_runs_start_rear : ∃ h, Runs (start ⟨[]⟩ rear) 1 tandemEnded h (.ok ()) tandemAgain := by
  have hplan : tandem.plan tandemEnded rear = .ok [front, rear] := by cbv
  have hfront : ∃ h, Runs (spawn ⟨[]⟩ front) 1 tandemEnded h (.ok ()) tandemHalf :=
    (Dialogue.exists_runs_of_answered (f := endsAtOnce) (by cbv)).imp fun _ => And.left
  have hrear : ∃ h, Runs (spawn ⟨[]⟩ rear) 1 tandemHalf h (.ok ()) tandemAgain :=
    (Dialogue.exists_runs_of_answered (f := endsAtOnce) (by cbv)).imp fun _ => And.left
  refine exists_runs_bind (a := tandemEnded) ⟨[], .done _⟩ ?_
  refine exists_runs_bind ⟨[], runs_ofExcept_iff.mpr ⟨rfl, hplan.symm, rfl⟩⟩ ?_
  exact exists_runs_bind hfront (exists_runs_bind hrear ⟨[], .done _⟩)

/-- The sweep cannot start the first service when its turn comes, but does so for the second. -/
theorem exists_runs_checkAll_tandem :
    ∃ h, Runs (checkAll ⟨[]⟩) 1 tandemEnded h (.ok false) tandemAgain := by
  have hplan : tandem.plan tandemEnded front = .ok [front] := by cbv
  have ha : ∀ a ∈ (tandem.service front).argv, a.contains '\x00' = false := by
    intro a ha
    obtain rfl := List.mem_singleton.mp ha
    cbv
  obtain ⟨h, c, hstart⟩ : ∃ h c, Runs (start ⟨[]⟩ front) 1 tandemEnded h (.error (.spawnFailed c .tryAgain))
      tandemEnded := exists_runs_start hplan rfl ha .tryAgain
  have hfront := exists_runs_checkService (b := tandemEnded) (i := front) ⟨by decide, rfl⟩ rfl ⟨h, hstart⟩
  have hrear : ∃ h, Runs (checkService ⟨[]⟩ rear) 1 tandemEnded h (.ok true) tandemAgain := by
    obtain ⟨h, hstart⟩ := exists_runs_start_rear
    refine exists_runs_bind ⟨[], .done _⟩ (exists_runs_bind exists_runs_log ?_)
    exact exists_runs_bind ⟨h, runs_attempt_iff.mpr ⟨_, rfl, hstart⟩⟩ ⟨[], .done _⟩
  have hids : tandem.ids = [front, rear] := rfl
  rw [checkAll, hids, List.mapM_cons, List.mapM_cons, List.mapM_nil]
  refine exists_runs_bind (a := [false, true]) (exists_runs_bind hfront ?_) ⟨[], .done _⟩
  refine exists_runs_bind (a := [true]) ?_ ⟨[], .done _⟩
  exact exists_runs_bind hrear (exists_runs_bind ⟨[], .done _⟩ ⟨[], .done _⟩)

/-- The answer is no, and both services run. -/
theorem checkAll_false_of_failed_fork : ∃ h results b,
    Runs (session ⟨[]⟩ tandemSession) 1 Board.initial h (.ok results) b ∧
      ∃ h' b', Runs (checkAll ⟨[]⟩) 1 b h' (.ok false) b' ∧ ∀ i : tandem.Id, ∃ p, b'[i].pid = some p := by
  obtain ⟨h, hsession⟩ := exists_runs_session_tandem
  obtain ⟨h', hsweep⟩ := exists_runs_checkAll_tandem
  refine ⟨h, _, _, hsession, h', _, hsweep, fun i => ?_⟩
  match i with
  | ⟨0, _⟩ => exact ⟨100, rfl⟩
  | ⟨1, _⟩ => exact ⟨101, rfl⟩

end Supervision

end ContainerInit
