import ContainerInit.Proofs.Supervision.Attempt
import ContainerInit.Proofs.Supervision.Idle
import ContainerInit.Proofs.Supervision.ValidRegistry

/-! # The restart sweep

The sweep looks at each service once and starts it again if its policy asks for that, and with it what it needs.  In
this way a service may be attempted before its own turn.  What keeps the sweep in order is that each attempt is allowed
where it is made, and that nothing but a failed fork takes from a service what it had at the beginning.

A start made by the sweep may fork services that the sweep itself would not restart: those that have never been started,
as dependencies of one that it does restart.  `MayStart` allows for both, and rules out services that have run and are
not to be started again (`Retired`).

That a service which is to be restarted runs in the end does not follow from its own turn alone, since an earlier start
may have got there first, or have failed there.  The invariant (`SweptOver`) therefore speaks of the services done with
and of the forks that have failed among what they depend on. -/

namespace ContainerInit

open Relation

namespace Board

variable {r : Registry} {b b₁ : Board r} {i j : r.Id} {as : List (Attempt r)}

/-- The service has no process, and it was never started or its policy allows to start it again. -/
def MayStart (b : Board r) (i : r.Id) : Prop :=
  b.Idle i ∧ (b[i].status = .notStarted ∨ b.canRestart i = true)

/-- The service has run, and its policy is against another start. -/
def Retired (b : Board r) (i : r.Id) : Prop := match (r.service i).restart with
  | .never => b[i].status = .stopped ∨ b[i].status = .broken
  | .onFailure => b[i].status ≠ .notStarted ∧ b[i].exitCode = 0
  | .unlessStopped => b[i].status = .stopped
  | .always => False

theorem MayStart.of_eq (h : b.MayStart i) (hi : b₁[i] = b[i]) : b₁.MayStart i := by
  rw [MayStart, Idle, canRestart, hi]
  exact h

/-- A service that is not to be started again may not. -/
theorem MayStart.not_retired (h : b.MayStart i) : ¬ b.Retired i := by
  obtain ⟨-, hs | hc⟩ := h
  · rw [Retired, hs]
    cases (r.service i).restart <;> simp
  · obtain ⟨-, hc⟩ := Bool.and_eq_true_iff.mp hc
    rw [Retired]
    cases hp : (r.service i).restart with
    | never => simp [hp] at hc
    | always => exact id
    | onFailure =>
      have hcode : b[i].exitCode ≠ 0 := by simpa [hp] using hc
      exact fun h => hcode h.2
    | unlessStopped => simpa [hp] using hc

/-- An idle service that does not hold up those that depend on it may be started. -/
theorem mayStart_of_not_isBlocked (hs : b[i].Sound) (hi : b.Idle i) (hb : b.isBlocked i = false) :
    b.MayStart i := by
  refine ⟨hi, ?_⟩
  cases hst : b[i].status with
  | notStarted => exact .inl rfl
  | running =>
    have hp := hs.running_iff.mp hst
    rw [hi] at hp
    cases hp
  | stopped => exact .inr (by simpa [isBlocked, Service.State.isBlocked, hst, canRestart] using hb)
  | broken => exact .inr (by simpa [isBlocked, Service.State.isBlocked, hst, canRestart] using hb)

/-- Where attempts are made only for what satisfies a condition on the own state, a service that does not is left
alone. -/
theorem EachTime.notMem {P : Board r → r.Id → Prop} (h : b.EachTime P as)
    (hP : ∀ {b b₁ : Board r}, P b₁ i → b[i] = b₁[i] → P b i) (hi : ¬ P b i) : i ∉ as.map Attempt.service := by
  induction as generalizing b with
  | nil => nofun
  | cons a as ih =>
    obtain ⟨ha, has⟩ := h
    have hne : a.service ≠ i := by
      rintro rfl
      exact hi ha
    rw [List.map_cons, List.mem_cons, not_or]
    exact ⟨hne.symm, ih has (mt (hP · (getElem_noting_ne hne).symm) hi)⟩

/-- As long as only what may start is attempted, a retired service is not. -/
theorem EachTime.notMem_of_retired (h : b.EachTime MayStart as) (hi : b.Retired i) :
    i ∉ as.map Attempt.service :=
  h.notMem MayStart.of_eq fun hm => hm.not_retired hi

theorem Restartable.idle (h : b.Restartable i) : b.Idle i := isRunning_eq_false_iff.mp h.isRunning_eq_false

theorem EachTime.idle (h : b.EachTime MayStart as) : b.EachTime Idle as := h.imp fun _ _ => And.left

section Later

variable (hf : ∀ j e, ReflTransGen r.DependsOn i j → ⟨j, .error e⟩ ∉ as)

/-- After some attempts a start requires no more than it would have before. -/
theorem Requires.of_notingAll (h : (b.notingAll as).Requires i j) : b.Requires i j := by
  refine ReflTransGen.mono (fun k l hkl => ⟨hkl.1, ?_⟩) _ _ h
  exact isRunning_eq_false_iff.mpr (idle_of_notingAll (isRunning_eq_false_iff.mp hkl.2))

include hf

/-- Where no attempt for a service or what it depends on has failed, nothing is in its way that has not been
before. -/
theorem HeldBack.of_notingAll (h : (b.notingAll as).HeldBack i) : b.HeldBack i := by
  obtain ⟨j, k, hj, hk, hb⟩ := h
  have hidle := isRunning_eq_false_iff.mp hk.2
  have hk₀ : (b.notingAll as)[k] = b[k] :=
    getElem_notingAll_of_idle (fun e => hf k e (hj.dependsOn.tail hk.1)) hidle
  refine ⟨j, k, hj.of_notingAll, ⟨hk.1, isRunning_eq_false_iff.mpr (idle_of_notingAll hidle)⟩, ?_⟩
  rwa [isBlocked, hk₀] at hb

/-- A service that was to be restarted and still has no process is so later, unless a fork has failed. -/
theorem Restartable.notingAll (h : b.Restartable i) (hi : (b.notingAll as).Idle i) :
    (b.notingAll as).Restartable i := by
  rw [Restartable, canRestart, getElem_notingAll_of_idle (fun e => hf i e .refl) hi]
  exact h

end Later

end Board

namespace Supervision

open ContainerInit.Action Board

variable {r : Registry} {sup : Supervisor} {b b' : Board r} {i j : r.Id} {done : List r.Id}
  {as as' : List (Attempt r)} {res : Except Error Unit}

/-! ## One service -/

/-- What the sweep does about one service. -/
inductive Resumed (b : Board r) (i : r.Id) : List (Attempt r) → Prop where
  | passed (hi : ¬ b.Restartable i) : Resumed b i []
  | launched {as : List (Attempt r)} {res : Except Error Unit} (hi : b.Restartable i)
      (hl : Launched b i as res) : Resumed b i as

/-- A start that is allowed attempts only what may start. -/
theorem Launched.mayStart (hl : Launched b i as res) (hs : b.Sound) (hi : b.canRestart i = true) :
    b.EachTime MayStart as := by
  cases hl with
  | refused hp => trivial
  | @planned is _ _ hp hu =>
    have hplan := isPlan_of_plan_eq_ok hp
    refine (hu.eachTime hplan.nodup).imp fun b₁ j ⟨hj, he, hidle⟩ => MayStart.of_eq ?_ he
    rcases (ReflTransGen.cases_tail ((hplan.mem_iff j).mp hj)) with rfl | ⟨k, hik, hkj⟩
    · exact ⟨hidle, .inr hi⟩
    · refine mayStart_of_not_isBlocked (hs j) hidle (Bool.eq_false_iff.mpr fun hb => ?_)
      exact not_obstacle_of_plan_eq_ok hp _ (.blocked hik hkj hb)

/-- In a valid registry a start fails over nothing that the sweep does not pass over. -/
theorem Launched.isRecoverable (hl : Launched b i as res) (hv : r.validate = .ok ()) {e : Error}
    (he : res = .error e) : e.isRecoverable = true := by
  subst he
  generalize hres : (Except.error e : Except Error Unit) = res at hl
  cases hl with
  | refused hp =>
    cases hres
    obtain ⟨_, _, _, rfl⟩ := (obstacle_of_plan_eq_error hp).exists_blocked hv
    rfl
  | planned hp hu =>
    subst hres
    obtain ⟨_, _, _, -, -, rfl, -⟩ := hu.of_error
    rfl

namespace Resumed

variable (hr : Resumed b i as)

include hr

/-- Each attempt of a turn is allowed where it is made. -/
theorem mayStart (hs : b.Sound) : b.EachTime MayStart as := by
  cases hr with
  | passed hi => trivial
  | launched hi hl => exact hl.mayStart hs hi.2

/-- What may be restarted and is not held back runs then, unless a fork fails. -/
theorem isRunning (hv : r.validate = .ok ()) (hi : b.Restartable i) (hh : ¬ b.HeldBack i)
    (hf : ∀ j e, ReflTransGen r.DependsOn i j → ⟨j, .error e⟩ ∉ as) : (b.notingAll as).isRunning i = true := by
  cases hr with
  | passed hn => exact absurd hi hn
  | @launched _ res _ hl =>
    cases hl with
    | refused hp =>
      cases obstacle_of_plan_eq_error hp with
      | missing hj hl => exact absurd hl ((Registry.validate_eq_ok_iff.mp hv).1 _ _)
      | circle hj hc =>
        exact absurd (TransGen.mono (fun _ _ => And.left) _ _ hc) ((Registry.validate_eq_ok_iff.mp hv).2 _)
      | blocked hj hk hb => exact absurd ⟨_, _, hj, hk, hb⟩ hh
    | @planned is _ _ hp hu =>
      have hplan := isPlan_of_plan_eq_ok hp
      cases res with
      | ok _ => exact hu.of_ok.2.2 i (List.mem_of_getLast? hplan.last)
      | error e =>
        obtain ⟨done, j, errno, hj, rfl, -⟩ := hu.of_error
        refine absurd (List.mem_append_right _ (.head _)) (hf j errno ?_)
        exact ((hplan.mem_iff j).mp hj).dependsOn

end Resumed

/-- What the check of one service comes to, with its answer. -/
inductive Looked (b : Board r) (i : r.Id) : List (Attempt r) → Except Error Bool → Prop where
  | running (hi : b.isRunning i = true) : Looked b i [] (.ok true)
  | passed (hi : b.Idle i) (hn : ¬ b.Restartable i) : Looked b i [] (.ok false)
  | started {as : List (Attempt r)} (hi : b.Restartable i) (hl : Launched b i as (.ok ())) : Looked b i as (.ok true)
  | failed {as : List (Attempt r)} {e : Error} (hi : b.Restartable i) (hl : Launched b i as (.error e))
      (he : e.isRecoverable = true) : Looked b i as (.ok false)
  | broken {as : List (Attempt r)} {e : Error} (hi : b.Restartable i) (hl : Launched b i as (.error e))
      (he : e.isRecoverable = false) : Looked b i as (.error e)

/-- After a start that has not failed, the service runs, and no attempt of it has failed. -/
theorem Launched.of_ok (hl : Launched b i as (.ok ())) :
    (b.notingAll as).isRunning i = true ∧ ∀ a ∈ as, a.Succeeded := by
  generalize hres : (Except.ok () : Except Error Unit) = res at hl
  cases hl with
  | refused hp => cases hres
  | planned hp hu =>
    subst hres
    exact ⟨hu.of_ok.2.2 i (List.mem_of_getLast? (isPlan_of_plan_eq_ok hp).last), hu.of_ok.1⟩

theorem assures_checkService_looked (sup : Supervisor) (i : r.Id) {n : Nat} {h : History (Board r)} :
    Assures (.anything _) (fun _ _ _ _ => True) (checkService sup i) (ComesTo sup h b (Looked b i)) n h () b := by
  refine (assures_checkService_by (Q := fun h' res b' => ComesTo sup h b (Launched b i) h' () res b')
    (fun _ _ _ _ hq => hq.call rfl) fun l => (assures_start_comesTo sup i).imp fun h₁ _ res b₁ hq => ?_).imp ?_
  · exact hq.imp_left fun ⟨as, hm, hl⟩ => ⟨as, (Made.refl.call rfl).trans hm, hl⟩
  · rintro h' _ _ b' (hi | ⟨hi, hn⟩ | ⟨hi, hq⟩ | ⟨hi, hq, he⟩ | ⟨hi, hq, he⟩)
    · exact .inl ⟨[], .refl, .running hi⟩
    · exact .inl ⟨[], .refl, .passed (isRunning_eq_false_iff.mp hi) hn⟩
    · obtain ⟨as, hm, hl⟩ | ⟨_, ⟨⟩, _⟩ := hq
      refine .inl ⟨as, hm, ?_⟩
      rw [hm.board_eq, hl.of_ok.1]
      exact .started hi hl
    · obtain ⟨as, hm, hl⟩ | ⟨_, ⟨⟩, hf⟩ := hq
      · exact .inl ⟨as, hm, .failed hi hl he⟩
      · obtain ⟨_, _, _, _, rfl⟩ := hf
        cases he
    · obtain ⟨as, hm, hl⟩ | ⟨_, ⟨⟩, hf⟩ := hq
      · exact .inl ⟨as, hm, .broken hi hl he⟩
      · exact .inr ⟨_, rfl, hf⟩

/-- The check of one service does not fail in a valid registry. -/
theorem assures_checkService_resumed (hv : r.validate = .ok ()) (hf : r.NulFree) (sup : Supervisor) (i : r.Id)
    {n : Nat} {h : History (Board r)} :
    Assures (.anything _) (fun _ _ _ _ => True) (checkService sup i)
      (fun h' _ res b' => (∃ found, res = .ok found) ∧ ∃ as, Made sup h b as h' b' ∧ Resumed b i as) n h () b := by
  refine (assures_checkService_looked sup i).imp fun h' _ res b' hl => ?_
  obtain ⟨as, hm, hlooked⟩ := hl.of_nulFree hf
  clear hl
  cases hlooked with
  | running hi => exact ⟨⟨_, rfl⟩, [], hm, .passed fun hr => hr.idle.not_isRunning hi⟩
  | passed hi hn => exact ⟨⟨_, rfl⟩, [], hm, .passed hn⟩
  | started hi hl => exact ⟨⟨_, rfl⟩, as, hm, .launched hi hl⟩
  | failed hi hl he => exact ⟨⟨_, rfl⟩, as, hm, .launched hi hl⟩
  | broken hi hl he => cases he.symm.trans (hl.isRecoverable hv rfl)

/-! ## All services -/

/-- What the sweep has come to after the services in `done`. -/
structure SweptOver (b : Board r) (done : List r.Id) (as : List (Attempt r)) : Prop where
  mayStart : b.EachTime MayStart as
  isRunning : ∀ i ∈ done, b.Restartable i → ¬ b.HeldBack i →
    (∀ j e, ReflTransGen r.DependsOn i j → ⟨j, .error e⟩ ∉ as) → (b.notingAll as).isRunning i = true

/-- One service more.  If it does not run when its turn comes, it is what it was at the beginning, and so is
everything that is in its way. -/
theorem SweptOver.resumed (hs : SweptOver b done as) (hv : r.validate = .ok ()) (hb : b.Sound)
    (hr : Resumed (b.notingAll as) i as') : SweptOver b (done ++ [i]) (as ++ as') := by
  refine ⟨eachTime_append.mpr ⟨hs.mayStart, hr.mayStart (hb.notingAll hs.mayStart.idle)⟩, ?_⟩
  intro j hj hrestart hheld hf
  have hbefore : ∀ k e, ReflTransGen r.DependsOn j k → ⟨k, .error e⟩ ∉ as :=
    fun k e hk hm => hf k e hk (List.mem_append_left _ hm)
  have hafter : ∀ k e, ReflTransGen r.DependsOn j k → ⟨k, .error e⟩ ∉ as' :=
    fun k e hk hm => hf k e hk (List.mem_append_right _ hm)
  rw [notingAll_append]
  rcases List.mem_append.mp hj with hj | hj
  · exact isRunning_notingAll_of_isRunning (hs.isRunning j hj hrestart hheld hbefore)
  · obtain rfl := List.mem_singleton.mp hj
    cases hrun : (b.notingAll as).isRunning j with
    | true => exact isRunning_notingAll_of_isRunning hrun
    | false =>
      have hidle := isRunning_eq_false_iff.mp hrun
      exact hr.isRunning hv (hrestart.notingAll hbefore hidle) (mt (HeldBack.of_notingAll hbefore) hheld) hafter

/-- All turns, by the invariant of those that are over. -/
theorem assures_checkAll_swept (hv : r.validate = .ok ()) (hf : r.NulFree) (sup : Supervisor) (hb : b.Sound)
    {n : Nat} : Assures (.anything _) (fun _ _ _ _ => True) (checkAll sup) (fun h _ res b' =>
      (∃ found, res = .ok found) ∧ ∃ as, Made sup [] b as h b' ∧ SweptOver b r.ids as) n [] () b := by
  refine assures_bind.mpr (assures_mapM_ends (W := .anything _) (fun done _ h _ b' => ∃ as,
    Made sup [] b as h b' ∧ SweptOver b done as) r.ids ⟨[], .refl, trivial, nofun⟩ ?_ ?_)
  · rintro h _ _ done i _ ⟨as, hm, hs⟩
    refine (assures_checkService_resumed hv hf sup i).imp ?_
    rintro h₁ _ _ b₁ ⟨⟨found, rfl⟩, as', hm', hr⟩
    rw [hm.board_eq] at hr
    exact ⟨as ++ as', hm.trans hm', hs.resumed hv hb hr⟩
  · exact fun h _ found b' hi => ⟨⟨_, rfl⟩, hi⟩

theorem halts_checkService (sup : Supervisor) (i : r.Id) : Halts (checkService sup i) := by
  refine (halts_get.bind fun _ => halts_pure _).bind fun s => ?_
  split
  · exact halts_pure _
  split
  · exact halts_pure _
  refine (halts_ask _).bind fun _ => (halts_start sup i).attempt.bind fun res => ?_
  cases res with
  | ok _ => exact (halts_get.bind fun _ => halts_pure _).bind fun _ => halts_pure _
  | error e =>
    dsimp only
    split
    · exact halts_throw _
    · exact (halts_ask _).bind fun _ => halts_pure _

theorem halts_checkAll (sup : Supervisor) : Halts (checkAll sup : Operation r Bool) :=
  (halts_mapM _ (halts_checkService sup)).bind fun _ => halts_pure _

/-- In a valid registry whose arguments can all be given to a process, the restart sweep succeeds, whatever the
kernel answers.  Each fork is for a service that may start at that moment; one that its policy has retired is
not forked from then on.  No service is started twice.  Whatever the sweep finds that might be restarted and
is not held back runs in the end, unless a fork fails for it or for something that it depends on. -/
theorem checkAll_respects_policies (sup : Supervisor) (hv : r.validate = .ok ()) (hf : r.NulFree)
    (hb : b.Sound) : Halts (checkAll sup : Operation r Bool) ∧
      ∀ n h res b', Runs (checkAll sup) n b h res b' → ∃ found as, res = .ok found ∧
        forkCalls h = calls sup b as ∧ b' = b.notingAll as ∧ b.EachTime MayStart as ∧
        (∀ before after i, as = before ++ after → (b.notingAll before).Retired i →
          i ∉ after.map Attempt.service) ∧
        (Attempt.started as).Nodup ∧
        ∀ i, b.Restartable i → ¬ b.HeldBack i →
          (∀ j e, ReflTransGen r.DependsOn i j → ⟨j, .error e⟩ ∉ as) → b'.isRunning i = true := by
  refine ⟨halts_checkAll sup, fun n h res b' hr => ?_⟩
  obtain ⟨⟨found, rfl⟩, as, ⟨hcalls, rfl⟩, hs⟩ := (assures_checkAll_swept hv hf sup hb).runs hr
  refine ⟨found, as, rfl, hcalls, rfl, hs.mayStart, ?_, Attempt.nodup_started hs.mayStart.idle, fun i => ?_⟩
  · rintro before after i rfl hi
    exact (eachTime_append.mp hs.mayStart).2.notMem_of_retired hi
  · exact hs.isRunning i (List.mem_finRange i)

/-- Both services of the pair have ended by themselves. -/
def pairEnded : Board (dependentPair .always) := ⟨#v[⟨.broken, none, 0, false⟩, ⟨.broken, none, 0, false⟩]⟩

/-- The service `a`. -/
def dependency : (dependentPair .always).Id := ⟨0, Nat.zero_lt_two⟩

theorem validate_dependentPair : (dependentPair .always).validate = .ok () := by cbv

/-- Both services have ended, and run again. -/
theorem checkAll_respects_policies_dependentPair : ∃ h found b',
    Runs (checkAll ⟨[]⟩) 0 pairEnded h (.ok found) b' ∧ b'.isRunning dependency = true ∧
      b'[dependent .always] = pairEnded[dependent .always] := by
  have hs : pairEnded.Sound := fun i => match i with
    | ⟨0, _⟩ => ⟨⟨nofun, nofun⟩, nofun, nofun⟩
    | ⟨1, _⟩ => ⟨⟨nofun, nofun⟩, nofun, nofun⟩
  obtain ⟨hhalts, hall⟩ := checkAll_respects_policies ⟨[]⟩ validate_dependentPair dependentPair_argv hs
  obtain ⟨h, ⟨res, b'⟩, hr, hans⟩ := (hhalts 0 pairEnded).exists_runs forksOnly
  obtain ⟨found, as, rfl, hcalls, hb', -, hretired, -, hrunning⟩ := hall 0 h res b' hr
  have hm : Made ⟨[]⟩ [] pairEnded as h b' := ⟨hcalls, hb'⟩
  refine ⟨h, found, b', hr, ?_, ?_⟩
  · refine hrunning dependency ⟨nofun, rfl⟩ ?_ fun j e _ => hm.notMem_of_forksOnly hans j e
    rintro ⟨j, k, hj, hk, hb⟩
    match k with
    | ⟨0, _⟩ => cases hb
    | ⟨1, _⟩ =>
      match j with
      | ⟨0, _⟩ => cases hk.1
      | ⟨1, _⟩ => exact absurd (List.mem_singleton.mp hk.1) (show ¬ "b" = "a" by decide)
  · rw [hb']
    exact getElem_notingAll_of_notMem (hretired [] as (dependent .always) rfl (.inr rfl))

end Supervision

end ContainerInit
