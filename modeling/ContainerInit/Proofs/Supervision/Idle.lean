import ContainerInit.Proofs.Supervision.Retry
import ContainerInit.Supervision.Program

/-! # Nothing left to supervise

The loop ends by itself after a restart sweep that leaves no service running.  The sweep is not tried again then, so
that a service whose start has failed in it stays as it is, although it might be started later.

## What a sweep comes to

`Checked` is what becomes of one service, and `Swept` of those that have been looked at so far.  Unless a service runs
or a fork has failed, nothing has changed at all, and then each service that would be started again is held back by
one of its dependencies.

## Before the sweep

That no child is left is found out before the sweep, and the sweep may well start something.  Therefore the loop looks
at the services once more, but not at the reasons why none of them runs (`exists_runs_checkAll`).  The last section
has a service whose only restart fails over a fork. -/

namespace ContainerInit

namespace Board

variable {r : Registry}

/-- The restart sweep would start the service. -/
def Restartable (b : Board r) (i : r.Id) : Prop := b[i].status ≠ .notStarted ∧ b.canRestart i = true

/-- A start of the service would be refused because of a dependency that has ended for good. -/
def HeldBack (b : Board r) (i : r.Id) : Prop :=
  ∃ j k, b.Requires i j ∧ b.Needs j k ∧ b.isBlocked k = true

theorem Restartable.isRunning_eq_false {b : Board r} {i : r.Id} (h : b.Restartable i) : b.isRunning i = false := by
  obtain ⟨hr, -⟩ := Bool.and_eq_true_iff.mp h.2
  simpa [isRunning] using hr

end Board

namespace Supervision

open ContainerInit.Action

variable {r : Registry} {sup : Supervisor} {i j : r.Id} {b b₀ b' : Board r} {fs fs' : List Fork}
  {is done : List r.Id} {n : Nat} {h : History (Board r)}

/-! ## The restart sweep -/

/-- What the sweep comes to with one service, unless it fails. -/
inductive Checked (b : Board r) (i : r.Id) : List Fork → Board r → Prop where
  | unchanged (hi : b.Restartable i → b.HeldBack i) : Checked b i [] b
  | started {fs : List Fork} {b' : Board r} (hi : b'.isRunning i = true) : Checked b i fs b'
  | failed {fs : List Fork} {b' : Board r} {c : Kernel.Child} {e : Errno} (hf : (c, .error e) ∈ fs)
      (hi : b'.Restartable i) : Checked b i fs b'

/-- A service that might be started can be started again after it could not be. -/
theorem StoppedAt.restartable (hs : StoppedAt b done j b') (hi : b.Restartable i) (hd : i ∉ done) :
    b'.Restartable i := by
  by_cases hij : i = j
  · subst hij
    refine ⟨by rw [hs.failed]; nofun, ?_⟩
    rw [Board.canRestart, hs.failed]
    exact Service.State.canRestart_failed hi.2
  · rwa [Board.Restartable, Board.canRestart, hs.others i hij hd]

/-- What a start comes to that ends without an error, or with one that the sweep passes over. -/
theorem Attempted.checked {res : Except Error Unit} (hs : Attempted sup b i fs res b') (hi : b.Restartable i)
    (he : ∀ e, res = .error e → e.isRecoverable = true) : Checked b i fs b' := by
  cases hs with
  | @refused e hp =>
    cases Board.obstacle_of_plan_eq_error hp with
    | missing => cases he _ rfl
    | circle => cases he _ rfl
    | blocked hj hk hb => exact .unchanged fun _ => ⟨_, _, hj, hk, hb⟩
  | @planned is fs res b' hp hc =>
    have hplan := Board.isPlan_of_plan_eq_ok hp
    cases res with
    | ok _ =>
      cases hc with
      | complete is pid => exact .started (isRunning_withStarted_of_mem (List.mem_of_getLast? hplan.last))
    | error e =>
      have he := he e rfl
      cases e with
      | spawnFailed c e =>
        obtain ⟨done, j, rest, rfl, hlast, hs⟩ := hc.stoppedAt hplan.nodup
        have hi' : i ∈ j :: rest := by
          have hl := hplan.last
          rw [List.getLast?_append_of_ne_nil _ (List.cons_ne_nil j rest)] at hl
          exact List.mem_of_getLast? hl
        have hd : i ∉ done := fun hd => List.disjoint_of_nodup_append hplan.nodup hd hi'
        exact .failed (List.mem_of_getLast? hlast) (hs.restartable hi hd)
      | dependencyBlocked => cases hc with | stopped _ _ hf => cases hf
      | _ => cases he

/-- What the check of a service comes to, if `Q` says it of a start: the service runs already, or is passed over,
or it is started, and unless that fails for good the answer is whether it runs then. -/
inductive CheckedBy (Q : History (Board r) → Except Error Unit → Board r → Prop) (h : History (Board r))
    (b : Board r) (i : r.Id) : History (Board r) → Except Error Bool → Board r → Prop where
  | running (hi : b.isRunning i = true) : CheckedBy Q h b i h (.ok true) b
  | passed (hi : b.isRunning i = false) (hn : ¬ b.Restartable i) : CheckedBy Q h b i h (.ok false) b
  | started {h' : History (Board r)} {b' : Board r} (hi : b.Restartable i) (hq : Q h' (.ok ()) b') :
      CheckedBy Q h b i h' (.ok (b'.isRunning i)) b'
  | failed {h' : History (Board r)} {b' : Board r} {e : Error} (hi : b.Restartable i) (hq : Q h' (.error e) b')
      (he : e.isRecoverable = true) : CheckedBy Q h b i h' (.ok false) b'
  | broken {h' : History (Board r)} {b' : Board r} {e : Error} (hi : b.Restartable i) (hq : Q h' (.error e) b')
      (he : e.isRecoverable = false) : CheckedBy Q h b i h' (.error e) b'

/-- The records that the check writes must make no difference to what is said of the start. -/
theorem assures_checkService_by {Q : History (Board r) → Except Error Unit → Board r → Prop}
    (hlog : ∀ h' res b' l, Q h' res b' → Q (h' ++ [⟨(.log l, b'), ()⟩]) res b')
    (hstart : ∀ l, Assures (.anything _) (fun _ _ _ _ => True) (start sup i) (fun h' _ => Q h') n
      (h ++ [⟨(.log l, b), ()⟩]) () b) :
    Assures (.anything _) (fun _ _ _ _ => True) (checkService sup i) (fun h' _ => CheckedBy Q h b i h') n h () b := by
  refine assures_bind.mpr (assures_stateOf.mpr ?_)
  dsimp only
  split
  case isTrue hr => exact .running hr
  rename_i hr
  split
  case isTrue hn =>
    refine .passed (by simpa [Board.isRunning] using hr) fun hi => ?_
    rw [Board.Restartable, Board.canRestart] at hi
    simp [hi.1, hi.2] at hn
  rename_i hn
  have hi : b.Restartable i := by
    simpa [Board.Restartable, Board.canRestart] using hn
  refine assures_bind.mpr (assures_ask.mpr fun _ _ => ⟨trivial, fun _ _ _ => ?_⟩)
  refine assures_bind.mpr (assures_attempt.mpr ((hstart _).imp fun h₁ _ res b₁ hq => ?_))
  cases res with
  | ok _ => exact assures_bind.mpr (assures_stateOf.mpr (.started hi hq))
  | error e =>
    dsimp only
    cases he : e.isRecoverable with
    | false => exact .broken hi hq he
    | true => exact assures_bind.mpr (assures_ask.mpr fun _ _ => ⟨trivial, fun _ _ _ => .failed hi (hlog _ _ _ _ hq) he⟩)

/-- The sweep starts a service that may be started again, and passes over what does not fail for good. -/
theorem assures_checkService (sup : Supervisor) (i : r.Id) {n : Nat} {h : History (Board r)} {b : Board r} :
    Assures (.anything _) (fun _ _ _ _ => True) (checkService sup i) (fun h' _ res b' => match res with
      | .ok _ => ∃ fs, forks h' = forks h ++ fs ∧ Checked b i fs b'
      | .error _ => True) n h () b := by
  refine (assures_checkService_by (Q := fun h' res b' => ∃ fs, forks h' = forks h ++ fs ∧ Attempted sup b i fs res b')
    (fun _ _ _ _ hq => by rwa [forks_append_log]) fun l => ?_).imp ?_
  · have hs := assures_start sup i (n := n) (h := h ++ [⟨(.log l, b), ()⟩]) (b := b)
    rwa [forks_append_log] at hs
  · rintro h' _ _ b' (hi | ⟨hi, hn⟩ | ⟨hi, fs, hfs, hs⟩ | ⟨hi, ⟨fs, hfs, hs⟩, he⟩ | _)
    · refine ⟨[], (List.append_nil _).symm, .unchanged fun hr => ?_⟩
      cases hi.symm.trans hr.isRunning_eq_false
    · exact ⟨[], (List.append_nil _).symm, .unchanged fun hr => absurd hr hn⟩
    · exact ⟨fs, hfs, hs.checked hi nofun⟩
    · refine ⟨fs, hfs, hs.checked hi ?_⟩
      rintro _ ⟨⟩
      exact he
    · trivial

/-- What the sweep over the services in `done` has come to: some service is running, or a start has failed
over a fork, or all starts were refused. -/
inductive Swept (b₀ : Board r) (done : List r.Id) : List Fork → Board r → Prop where
  | running {fs : List Fork} {b : Board r} {i : r.Id} (hi : b.isRunning i = true) : Swept b₀ done fs b
  | failed {fs : List Fork} {b : Board r} {c : Kernel.Child} {e : Errno} (hf : (c, .error e) ∈ fs) {i : r.Id}
      (hi : b.Restartable i) : Swept b₀ done fs b
  | quiet (hd : ∀ i ∈ done, b₀.Restartable i → b₀.HeldBack i) : Swept b₀ done [] b₀

/-- One service more. -/
theorem Swept.checked (hs : Swept b₀ done fs b) (hc : Checked b i fs' b') :
    Swept b₀ (done ++ [i]) (fs ++ fs') b' := by
  cases hc with
  | started hi => exact .running hi
  | failed hf hi => exact .failed (List.mem_append_right _ hf) hi
  | unchanged hi =>
    cases hs with
    | running hr => exact .running hr
    | failed hf hi => exact .failed (List.mem_append_left _ hf) hi
    | quiet hd =>
      refine .quiet fun j hj => ?_
      rcases List.mem_append.mp hj with hj | hj
      · exact hd j hj
      · obtain rfl := List.mem_singleton.mp hj
        exact hi

/-- The sweep goes through all services. -/
theorem assures_checkAll (sup : Supervisor) {n : Nat} {h : History (Board r)} {b : Board r} :
    Assures (.anything _) (fun _ _ _ _ => True) (checkAll sup) (fun h' _ res b' => match res with
      | .ok _ => ∃ fs, forks h' = forks h ++ fs ∧ Swept b r.ids fs b'
      | .error _ => True) n h () b := by
  refine (assures_mapM (W := .anything _) (fun done _ h' _ b' => ∃ fs, forks h' = forks h ++ fs ∧
    Swept b done fs b') r.ids ⟨[], (List.append_nil _).symm, .quiet nofun⟩ ?_).bind ?_ fun _ _ _ _ hm => hm
  · rintro h₁ _ b₁ done i _ ⟨fs, hfs, hs⟩
    refine (assures_checkService sup i).yields ?_
    rintro h₂ _ _ b₂ ⟨fs', hfs', hc⟩
    exact ⟨fs ++ fs', by rw [hfs', hfs, List.append_assoc], hs.checked hc⟩
  · exact fun h₁ _ _ b₁ hm => hm

/-! ## The end of the loop -/

/-- A reaping with a sweep that leaves nothing has found no child before it, and no service running after. -/
theorem runs_reap_cases (hr : Runs (reap sup true) n b h (.ok true) b') :
    b'.anyRunning = false ∧ ∃ h₁ h₂ b₁ all, h = h₁ ++ h₂ ∧ Runs reapEnded n b h₁ (.ok true) b₁ ∧
      Runs (checkAll sup) n b₁ h₂ (.ok all) b' := by
  obtain ⟨h₁, h₂, noChildren, b₁, rfl, hreap, hrest⟩ := runs_bind_ok_iff.mp hr
  obtain ⟨h₃, h₄, all, b₂, rfl, hcheck, hsweep⟩ := runs_bind_ok_iff.mp hrest
  obtain ⟨h₅, h₆, b₃, b₄, rfl, hget, hend⟩ := runs_bind_ok_iff.mp hsweep
  obtain ⟨rfl, e, rfl⟩ := runs_get_iff.mp hget
  cases e
  cases hb : b₃.anyRunning with
  | true =>
    rw [if_pos hb] at hend
    obtain ⟨-, e, -⟩ := runs_pure_iff.mp hend
    cases e
  | false =>
    rw [if_neg (by simp [hb])] at hend
    obtain ⟨rfl, e, rfl⟩ := runs_pure_iff.mp hend
    cases e
    exact ⟨hb, h₁, h₃, b₁, all, by rw [List.append_nil, List.append_nil], hreap, hcheck⟩

/-- A signal ends the loop only by a reaping that leaves nothing. -/
theorem runs_handleSignal_cases {info : Kernel.SignalInfo}
    (hr : Runs (handleSignal sup info) n b h (.ok (some .idle)) b') :
    r.hasTimed = false ∧ ∃ h₁ h₂ b₁, h = h₁ ++ h₂ ∧ Runs (reap sup true) n b₁ h₂ (.ok true) b' := by
  obtain ⟨h₁, h₂, _, b₁, rfl, -, hrest⟩ := runs_bind_ok_iff.mp hr
  split at hrest
  · obtain ⟨-, e, -⟩ := runs_pure_iff.mp hrest
    cases e
  split at hrest
  · obtain ⟨h₃, h₄, empty, b₂, rfl, hreap, hend⟩ := runs_bind_ok_iff.mp hrest
    split at hend
    · rename_i he
      obtain ⟨rfl, -, rfl⟩ := runs_pure_iff.mp hend
      obtain ⟨rfl, ht⟩ : empty = true ∧ r.hasTimed = false := by simpa using he
      exact ⟨ht, h₁, h₃, b₁, by rw [List.append_nil], hreap⟩
    · obtain ⟨-, e, -⟩ := runs_pure_iff.mp hend
      cases e
  · obtain ⟨h₃, h₄, _, b₂, rfl, -, hend⟩ := runs_bind_ok_iff.mp hrest
    obtain ⟨-, e, -⟩ := runs_pure_iff.mp hend
    cases e

/-- So does a wait for the next event. -/
theorem runs_awaitEvent_cases {last : Calendar.Instant} {deadline : Option Nat}
    (hr : Runs (awaitEvent sup last deadline) n b h (.ok (.finish .idle)) b') :
    ∃ h₁ h₂ info b₁, h = h₁ ++ h₂ ∧ Runs (handleSignal sup info) n b₁ h₂ (.ok (some .idle)) b' := by
  obtain ⟨h₁, h₂, info, b₁, rfl, -, hrest⟩ := runs_bind_ok_iff.mp hr
  cases info with
  | none =>
    obtain ⟨-, e, -⟩ := runs_pure_iff.mp hrest
    cases e
  | some info =>
    obtain ⟨h₃, h₄, exit, b₂, rfl, hsignal, hend⟩ := runs_bind_ok_iff.mp hrest
    cases exit with
    | none =>
      obtain ⟨-, e, -⟩ := runs_pure_iff.mp hend
      cases e
    | some exit =>
      obtain ⟨rfl, e, rfl⟩ := runs_pure_iff.mp hend
      cases e
      exact ⟨h₁, h₃, info, b₁, by rw [List.append_nil], hsignal⟩

/-- The loop ends by itself after it has found no child left and carried out a restart sweep. -/
theorem exists_runs_checkAll (hr : Runs (mainLoop sup) n b h (.ok .idle) b') :
    r.hasTimed = false ∧ b'.anyRunning = false ∧ ∃ h₁ h₂ h₃ b₁ b₀ all, h = h₁ ++ h₂ ++ h₃ ∧
      Runs reapEnded n b₁ h₂ (.ok true) b₀ ∧ Runs (checkAll sup) n b₀ h₃ (.ok all) b' := by
  obtain ⟨h₁, h₂, last, b₁, rfl, -, hloop⟩ := runs_bind_ok_iff.mp hr
  obtain ⟨h₃, h₄, last, b₂, rfl, hround⟩ := hloop.last_round
  obtain ⟨h₅, h₆, last, deadline, b₃, rfl, hevent⟩ : ∃ h₅ h₆ last deadline b₃, h₄ = h₅ ++ h₆ ∧
      Runs (awaitEvent sup last deadline) n b₃ h₆ (.ok (.finish .idle)) b' := by
    unfold loopOnce at hround
    split at hround
    · obtain ⟨h₅, h₆, last, b₃, rfl, -, htimed⟩ := runs_bind_ok_iff.mp hround
      obtain ⟨h₇, h₈, minute, b₄, rfl, -, hevent⟩ := runs_bind_ok_iff.mp htimed
      exact ⟨h₅ ++ h₇, h₈, last, some minute, b₄, (List.append_assoc ..).symm, hevent⟩
    · exact ⟨[], h₄, last, none, b₂, rfl, hround⟩
  obtain ⟨h₇, h₈, info, b₄, rfl, hsignal⟩ := runs_awaitEvent_cases hevent
  obtain ⟨ht, h₉, h₁₀, b₅, rfl, hreap⟩ := runs_handleSignal_cases hsignal
  obtain ⟨hb, h₁₁, h₁₂, b₆, all, rfl, hended, hsweep⟩ := runs_reap_cases hreap
  exact ⟨ht, hb, h₁ ++ (h₃ ++ (h₅ ++ (h₇ ++ h₉))), h₁₁, h₁₂, b₅, b₆, all, by simp, hended, hsweep⟩

/-! ## A fork that fails at the wrong time -/

/-- A restart that is refused or that fails over a fork is passed over. -/
theorem exists_runs_checkService {e : Error} (hi : b.Restartable i) (he : e.isRecoverable = true)
    (hr : ∃ h, Runs (start sup i) n b h (.error e) b') :
    ∃ h, Runs (checkService sup i) n b h (.ok false) b' := by
  obtain ⟨h, hr⟩ := hr
  refine exists_runs_bind ⟨[], .done _⟩ ?_
  have hn : b[i].isRunning = false := by
    obtain ⟨-, hc⟩ := hi
    simpa using (Bool.and_eq_true_iff.mp hc).1
  rw [if_neg (by simp [hn]), if_neg (by simpa [Board.Restartable, Board.canRestart] using hi)]
  refine exists_runs_bind exists_runs_log (exists_runs_bind ⟨h, runs_attempt_iff.mpr ⟨_, rfl, hr⟩⟩ ?_)
  dsimp only
  rw [he]
  exact exists_runs_bind exists_runs_log ⟨[], .done _⟩

/-- The loop ends as soon as a sweep leaves no service running, if none waits for times of day. -/
theorem exists_runs_mainLoop (ht : r.hasTimed = false) (hreap : ∃ h, Runs reapEnded (n + 1) b h (.ok true) b₀)
    (hsweep : ∃ h all, Runs (checkAll sup) (n + 1) b₀ h (.ok all) b') (hb : b'.anyRunning = false) :
    ∃ h, Runs (mainLoop sup) (n + 1) b h (.ok .idle) b' := by
  obtain ⟨h, all, hsweep⟩ := hsweep
  have hreap : ∃ h, Runs (reap sup true) (n + 1) b h (.ok true) b' := by
    refine exists_runs_bind hreap (exists_runs_bind ⟨h, hsweep⟩ (exists_runs_bind ⟨[], .done _⟩ ?_))
    rw [hb]
    exact ⟨[], .done _⟩
  have hsignal : ∃ h, Runs (handleSignal sup ⟨Signal.child, 1⟩) (n + 1) b h (.ok (some .idle)) b' := by
    refine exists_runs_bind exists_runs_log (exists_runs_bind hreap ?_)
    rw [ht]
    exact ⟨[], .done _⟩
  have hround : ∀ last, ∃ h, Runs (loopOnce sup last) (n + 1) b h (.ok (.finish .idle)) b' := by
    intro last
    unfold loopOnce
    rw [ht]
    exact exists_runs_bind ⟨[⟨(.awaitSignal none, b), .ok ⟨Signal.child, 1⟩⟩], .ask (.done _)⟩
      (exists_runs_bind hsignal ⟨[], .done _⟩)
  have hloop : ∀ last, ∃ h, Runs (iterate (loopOnce sup) last) (n + 1) b h (.ok .idle) b' := by
    intro last
    change ∃ h, Runs (iterateFor (loopOnce sup) (n + 1) last) (n + 1) b h (.ok .idle) b'
    exact exists_runs_bind (hround last) ⟨[], .done _⟩
  obtain ⟨last, hminute⟩ : ∃ last, ∃ h, Runs currentMinute (n + 1) b h (.ok last) b :=
    ⟨_, exists_runs_bind (exists_runs_ask (0 : Int)) ⟨[], .done _⟩⟩
  exact exists_runs_bind hminute (hloop last)

/-- Its process ends with code 0, and no other process can be had. -/
def endsOnce (p : RestartPolicy) : (q : Kernel.Call × Board (Registry.single p)) → Kernel.signature.Answer q.1
  | (.fork _, b) => if b[Registry.only p].status = .notStarted then .ok 100 else .error .tryAgain
  | (.wait _, _) => .ok (.exited 100 0)
  | (.peek _, b) => if b.anyRunning then .ok (.exited 100 0) else .error .noChild
  | (c, _) => Kernel.refusal .tryAgain c

/-- The board while the process of the service runs. -/
def live (p : RestartPolicy) : Board (Registry.single p) := ⟨#v[⟨.running, some 100, 0, false⟩]⟩

/-- The board after the process of the service has ended. -/
def ended (p : RestartPolicy) : Board (Registry.single p) := ⟨#v[⟨.broken, none, 0, false⟩]⟩

/-- The service starts with the system. -/
theorem exists_runs_bootstrap (p : RestartPolicy) :
    ∃ h, Runs (bootstrap ⟨[]⟩ ⟨{}, -1⟩) 0 Board.initial h (.ok ()) (live p) := by
  have hvalid : (Registry.single p).validate = .ok () := by cbv
  have hstart : ∃ h, Runs (start ⟨[]⟩ (Registry.only p)) 0 Board.initial h (.ok ()) (live p) :=
    (Dialogue.exists_runs_of_answered (f := endsOnce p) (by cbv)).imp fun _ => And.left
  exact exists_runs_bind ⟨[], runs_ofExcept_iff.mpr ⟨rfl, hvalid.symm, rfl⟩⟩
    (exists_runs_bind (exists_runs_bind exists_runs_log hstart) ⟨[], .done _⟩)

theorem exists_runs_reapEnded (p : RestartPolicy) :
    ∃ h, Runs reapEnded 2 (live p) h (.ok true) (ended p) :=
  (Dialogue.exists_runs_of_answered (f := endsOnce p) (by cbv)).imp fun _ => And.left

theorem restartable_ended : (ended .always).Restartable (Registry.only .always) := ⟨by decide, rfl⟩

/-- The sweep tries to start the service again, for which there is no process. -/
theorem exists_runs_checkAll_of_always :
    ∃ h, Runs (checkAll ⟨[]⟩) 2 (ended .always) h (.ok false) (ended .always) := by
  have hplan : (Registry.single .always).plan (ended .always) (Registry.only .always) =
      .ok [Registry.only .always] := by cbv
  have ha : ∀ a ∈ ((Registry.single .always).service (Registry.only .always)).argv,
      a.contains '\x00' = false := by
    intro a ha
    obtain rfl := List.mem_singleton.mp ha
    cbv
  obtain ⟨h, c, hstart⟩ : ∃ h c, Runs (start ⟨[]⟩ (Registry.only .always)) 2 (ended .always) h
      (.error (.spawnFailed c .tryAgain)) (ended .always) := exists_runs_start hplan rfl ha .tryAgain
  have hcheck := exists_runs_checkService restartable_ended rfl ⟨h, hstart⟩
  have hids : (Registry.single .always).ids = [Registry.only .always] := rfl
  rw [checkAll, hids, List.mapM_cons, List.mapM_nil]
  exact exists_runs_bind (exists_runs_bind hcheck (exists_runs_bind ⟨[], .done _⟩ ⟨[], .done _⟩)) ⟨[], .done _⟩

/-- The loop ends by itself only if no service waits for times of day, no child was left, and no service
runs after the sweep that followed.  If no fork has failed in that sweep, whatever it would start again is
held back by a dependency that has ended for good.  If one has failed, there is a service that it would
start again. -/
theorem mainLoop_idle (hr : Runs (mainLoop sup) n b h (.ok .idle) b') :
    r.hasTimed = false ∧ (∀ i : r.Id, b'[i].pid = none) ∧
      ∃ h₁ h₂ h₃ b₁ b₀ all, h = h₁ ++ h₂ ++ h₃ ∧ Runs reapEnded n b₁ h₂ (.ok true) b₀ ∧
        Runs (checkAll sup) n b₀ h₃ (.ok all) b' ∧
        ((∀ c e, (c, .error e) ∉ forks h₃) → ∀ i, b'.Restartable i → b'.HeldBack i) ∧
        ∀ c e, (c, .error e) ∈ forks h₃ → ∃ i, b'.Restartable i := by
  obtain ⟨ht, hb, h₁, h₂, h₃, b₁, b₀, all, rfl, hended, hsweep⟩ := exists_runs_checkAll hr
  have hidle := Board.anyRunning_eq_false_iff.mp hb
  refine ⟨ht, hidle, h₁, h₂, h₃, b₁, b₀, all, rfl, hended, hsweep, ?_⟩
  obtain ⟨fs, hfs, hs⟩ := (assures_checkAll sup).runs hsweep
  rw [forks_nil, List.nil_append] at hfs
  rw [hfs]
  cases hs with
  | running hi =>
    rw [Board.isRunning_eq_false_iff.mpr (hidle _)] at hi
    cases hi
  | failed hf hi => exact ⟨fun h => absurd hf (h _ _), fun _ _ _ => ⟨_, hi⟩⟩
  | quiet hd => exact ⟨fun _ i hi => hd i (List.mem_finRange i) hi, nofun⟩

/-- A service that is never to be started again. -/
theorem mainLoop_idle_of_never :
    ∃ h b', Runs (mainLoop ⟨[]⟩) 2 (live .never) h (.ok .idle) b' ∧
      ∀ i : (Registry.single .never).Id, b'[i].pid = none := by
  obtain ⟨h, hsweep⟩ : ∃ h, Runs (checkAll ⟨[]⟩) 2 (ended .never) h (.ok false) (ended .never) :=
    (Dialogue.exists_runs_of_answered (f := endsOnce .never) (by cbv)).imp fun _ => And.left
  obtain ⟨h, hr⟩ := exists_runs_mainLoop rfl (exists_runs_reapEnded .never) ⟨h, _, hsweep⟩ rfl
  exact ⟨h, _, hr, (mainLoop_idle hr).2.1⟩

/-- A service that is always to be started again, for which there is no process. -/
theorem mainLoop_idle_restartable :
    ∃ h b, Runs (bootstrap ⟨[]⟩ ⟨{}, -1⟩) 0 (Board.initial : Board (Registry.single .always)) h (.ok ()) b ∧
      ∃ h b', Runs (mainLoop ⟨[]⟩) 2 b h (.ok .idle) b' ∧
        ∃ i : (Registry.single .always).Id, b'.Restartable i := by
  obtain ⟨h₁, hboot⟩ := exists_runs_bootstrap .always
  obtain ⟨h₂, hsweep⟩ := exists_runs_checkAll_of_always
  obtain ⟨h₃, hloop⟩ := exists_runs_mainLoop rfl (exists_runs_reapEnded .always) ⟨h₂, _, hsweep⟩ rfl
  exact ⟨h₁, _, hboot, h₃, _, hloop, Registry.only .always, restartable_ended⟩

end Supervision

end ContainerInit
