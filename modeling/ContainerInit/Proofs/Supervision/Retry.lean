import ContainerInit.Proofs.Dialogue.Evaluation
import ContainerInit.Proofs.Service.State
import ContainerInit.Proofs.Supervision.Start

/-! # Starting again after a failed fork

A start that stops at a service which could not be forked leaves that service broken, with the exit code it had.  If the
same start is tried again, the restart policy of that service is asked: unless it is the one to be started, it is a
dependency that has ended.  Where the policy does not allow another start, the second attempt is refused although
nothing but the fork has gone wrong, and everywhere else it is carried out.

`StoppedAt` is what the first start has left behind.  Against the plan that was made before, two things have changed:
some services run now that did not, and one is broken.  So nothing is needed that was not needed before, and the only
obstacle there may be is the broken service (`StoppedAt.obstacle_cases`).  Whether it is one is up to its policy and
its exit code, and it is then met for certain, since the service is still required (`StoppedAt.plan_eq_error`). -/

namespace ContainerInit.Supervision

open ContainerInit.Action Relation

variable {r : Registry} {sup : Supervisor} {i j k : r.Id} {b b' : Board r} {is done : List r.Id} {n : Nat}
  {h : History (Board r)} {res : Except Error Unit}

theorem attempted_of_runs (hr : Runs (start sup i) n b h res b') :
    ∃ fs, forks h = fs ∧ Attempted sup b i fs res b' := (assures_start sup i).runs hr

/-- A start without a plan ends at once. -/
theorem dialogue_start_of_plan_eq_error {e : Error} (hp : r.plan b i = .error e) :
    (start sup i).dialogue n b = .done (.error e, b) := by
  rw [start, dialogue_bind]
  change (ofExcept (r.plan b i) >>= fun is => is.forM (spawn sup)).dialogue n b = _
  rw [hp]
  rfl

/-! ## What a failed start leaves -/

/-- The services in `done` have been started, `j` could not be, and all others are as before. -/
structure StoppedAt (b : Board r) (done : List r.Id) (j : r.Id) (b' : Board r) : Prop where
  failed : b'[j] = b[j].failed
  idle : b[j].pid = none
  started : ∀ k ∈ done, b'.isRunning k = true
  others : ∀ k, k ≠ j → k ∉ done → b'[k] = b[k]

theorem isRunning_withStarted_of_mem {pid : r.Id → Pid} (hk : k ∈ is) :
    (withStarted b is pid).isRunning k = true := by
  rw [Board.isRunning, getElem_withStarted]
  cases hr : b.isRunning k with
  | true =>
    rw [if_neg (by simp)]
    exact hr
  | false =>
    rw [if_pos (by simp [hk])]
    rfl

/-- Where a plan has failed over a fork, it has stopped at the service of that fork. -/
theorem CarriedOut.stoppedAt {fs : List Fork} {c : String} {e : Errno} (hn : is.Nodup)
    (hc : CarriedOut sup b is fs (.error (.spawnFailed c e)) b') :
    ∃ done j rest, is = done ++ j :: rest ∧ fs.getLast? = some (childOf sup j, .error e) ∧
      StoppedAt b done j b' := by
  cases hc with
  | @stopped done rest j fs _ pid hj hf =>
    cases hf with
    | fork e =>
      have hjd : j ∉ done := fun hd => List.disjoint_of_nodup_append hn hd (.head _)
      refine ⟨done, j, rest, rfl, List.getLast?_concat, Board.getElem_set_self .., hj, fun k hk => ?_,
        fun k hkj hkd => ?_⟩
      · rw [Board.isRunning_set_ne _ _ (ne_of_mem_of_not_mem hk hjd).symm]
        exact isRunning_withStarted_of_mem hk
      · rw [Board.getElem_set_ne _ _ hkj.symm, getElem_withStarted]
        simp [hkd]

namespace StoppedAt

variable (hs : StoppedAt b done j b')

include hs

theorem isRunning_self : b'.isRunning j = false := by
  rw [Board.isRunning_eq_false_iff, hs.failed]
  exact hs.idle

/-- Whatever ran before still does. -/
theorem isRunning_of_isRunning (hk : b.isRunning k = true) : b'.isRunning k = true := by
  by_cases hkd : k ∈ done
  · exact hs.started k hkd
  · have hkj : k ≠ j := by
      rintro rfl
      rw [Board.isRunning_eq_false_iff.mpr hs.idle] at hk
      cases hk
    rwa [Board.isRunning, hs.others k hkj hkd]

/-- What is needed now has been needed before. -/
theorem needs (hk : b'.Needs i k) : b.Needs i k := by
  refine ⟨hk.1, Bool.eq_false_iff.mpr fun hr => ?_⟩
  cases hk.2.symm.trans (hs.isRunning_of_isRunning hr)

/-- Nothing takes part in another attempt that did not take part in the first. -/
theorem requires (hk : b'.Requires i k) : b.Requires i k :=
  ReflTransGen.mono (fun _ _ => hs.needs) _ _ hk

/-- The service that could not be started is still required, by way of the same services. -/
theorem requires_stopped {rest : List r.Id} (hp : b.IsPlan i (done ++ j :: rest)) : b'.Requires i j := by
  have hj : j ∈ done ++ j :: rest := by simp
  have hjd : j ∉ done := fun hd => List.disjoint_of_nodup_append hp.nodup hd (.head _)
  -- the services on the way from `i` to `j` come after `j`, and have not been started therefore
  have hway : ∀ k, b.Requires i k → TransGen b.Needs k j → b'.isRunning k = b.isRunning k := by
    intro k hik hkj
    obtain ⟨-, hlt⟩ := hp.ordered.idxOf_lt_of_transGen ((hp.mem_iff k).mpr hik) hkj
    rw [List.idxOf_append_of_notMem hjd, List.idxOf_cons_self] at hlt
    have hkd : k ∉ done := fun hkd => by
      rw [List.idxOf_append_of_mem hkd] at hlt
      have := List.idxOf_lt_length_of_mem hkd
      omega
    have hne : k ≠ j := by
      rintro rfl
      exact hp.ordered.not_transGen hj hkj
    rw [Board.isRunning, hs.others k hne hkd, Board.isRunning]
  have hall : ∀ k, b.Requires k j → b.Requires i k → b'.Requires k j := by
    intro k hkj
    induction hkj using ReflTransGen.head_induction_on with
    | refl => exact fun _ => .refl
    | head hkl hlj ih =>
      rename_i k l
      intro hik
      have hil := hik.tail hkl
      refine .head ⟨hkl.1, ?_⟩ (ih hil)
      rcases reflTransGen_iff_eq_or_transGen.mp hlj with rfl | hlj
      · exact hs.isRunning_self
      · rw [hway l hil hlj, hkl.2]
  exact hall i ((hp.mem_iff j).mp hj) .refl

/-- Nothing but the service that could not be started may be in the way of another attempt. -/
theorem obstacle_cases {e : Error} (hp : r.plan b i = .ok is) (ho : b'.Obstacle i e) :
    i ≠ j ∧ b'.isBlocked j = true ∧
      ∃ k, e = .dependencyBlocked (r.service k).name (r.service j).name .broken := by
  have hno := Board.not_obstacle_of_plan_eq_ok hp
  cases ho with
  | missing hk hl => exact absurd (.missing (hs.requires hk) hl) (hno _)
  | circle hk hc =>
    have hc := TransGen.mono (fun _ _ => hs.needs) _ _ hc
    exact absurd (.circle (hs.requires hk) hc) (hno (.dependencyCycle []))
  | @blocked k l hk hl hb =>
    have hlj : l = j := by
      by_contra hne
      have hld : l ∉ done := fun hd => by cases hl.2.symm.trans (hs.started l hd)
      rw [Board.isBlocked, hs.others l hne hld] at hb
      exact hno _ (.blocked (hs.requires hk) (hs.needs hl) hb)
    subst hlj
    refine ⟨?_, hb, k, ?_⟩
    · rintro rfl
      exact hno (.dependencyCycle []) (.circle .refl (.tail' (hs.requires hk) (hs.needs hl)))
    · rw [hs.failed]
      rfl

/-- Another attempt is refused if the service that could not be started may not start again. -/
theorem plan_eq_error (hp : r.plan b i = .ok is) (hij : i ≠ j) (hreq : b'.Requires i j)
    (hb : b'.isBlocked j = true) :
    ∃ k, r.plan b' i = .error (.dependencyBlocked (r.service k).name (r.service j).name .broken) := by
  obtain ⟨k, hik, hkj⟩ := (ReflTransGen.cases_tail hreq).resolve_left hij.symm
  obtain ⟨e, he⟩ := Board.plan_eq_error_iff.mpr ⟨_, .blocked hik hkj hb⟩
  obtain ⟨-, -, l, rfl⟩ := hs.obstacle_cases hp (Board.obstacle_of_plan_eq_error he)
  exact ⟨l, he⟩

/-- Another attempt has a plan unless that service may not start again. -/
theorem plan_eq_ok (hp : r.plan b i = .ok is) (hj : i ≠ j → b'.isBlocked j = false) :
    ∃ is, r.plan b' i = .ok is := by
  cases he : r.plan b' i with
  | ok is => exact ⟨is, rfl⟩
  | error e =>
    obtain ⟨hij, hb, -⟩ := hs.obstacle_cases hp (Board.obstacle_of_plan_eq_error he)
    rw [hj hij] at hb
    cases hb

end StoppedAt

/-- A plan that is carried out while every fork succeeds comes to its end, unless a command line cannot be
run at all. -/
theorem CarriedOut.of_forks_ok {fs : List Fork} (hc : CarriedOut sup b is fs res b')
    (hl : is.getLast? = some i) (hf : ∀ c e, (c, .error e) ∉ fs) :
    (res = .ok () ∧ b'.isRunning i = true) ∨
      ∃ k, ∃ a ∈ (r.service k).argv, a.contains '\x00' = true ∧
        res = .error (.invalidCommand (.nulByte a)) := by
  cases hc with
  | complete is pid => exact .inl ⟨rfl, isRunning_withStarted_of_mem (List.mem_of_getLast? hl)⟩
  | @stopped done rest k fs e pid hk hfail =>
    cases hfail with
    | fork e => exact absurd (List.mem_append_right _ (.head _)) (hf _ e)
    | argument ha hn => exact .inr ⟨k, _, ha, hn, rfl⟩

/-! ## Where no process can be had -/

/-- The forks are calls of the history. -/
theorem mem_forks_iff {σ : Type} {h : History σ} {c : Kernel.Child} {a : Except Errno Pid} :
    (c, a) ∈ forks h ↔ ∃ s, ⟨(.fork c, s), a⟩ ∈ h := by
  rw [forks, List.mem_filterMap]
  constructor
  · rintro ⟨⟨⟨q, s⟩, answer⟩, hm, he⟩
    split at he
    · rename_i hq
      cases he
      exact ⟨_, hq ▸ hm⟩
    · cases he
  · rintro ⟨s, hm⟩
    exact ⟨_, hm, rfl⟩

/-- If all forks fail, the first service of the plan is where it stops. -/
theorem CarriedOut.of_forks_fail {fs : List Fork} {rest : List r.Id} {e : Errno}
    (hc : CarriedOut sup b (j :: rest) fs res b') (hj : b[j].pid = none) (hf : ∀ f ∈ fs, f.2 = .error e)
    (ha : ∀ a ∈ (r.service j).argv, a.contains '\x00' = false) :
    ∃ c, res = .error (.spawnFailed c e) ∧ b' = b.set j b[j].failed := by
  have hfirst : ∀ done pid, (childOf sup j, .ok (pid j)) ∈ forksFor sup b (j :: done) pid := by
    intro done pid
    refine List.mem_map.mpr ⟨j, List.mem_filter.mpr ⟨.head _, ?_⟩, rfl⟩
    rw [Board.isRunning_eq_false_iff.mpr hj]
    rfl
  generalize his : j :: rest = is at hc
  cases hc with
  | complete is pid =>
    subst his
    cases hf _ (hfirst rest pid)
  | @stopped done rest' k fs e' pid hk hfail =>
    cases done with
    | cons l done =>
      obtain ⟨rfl, -⟩ := List.cons.inj his
      cases hf _ (List.mem_append_left _ (hfirst done pid))
    | nil =>
      obtain ⟨rfl, rfl⟩ := List.cons.inj his
      rw [withStarted_nil]
      cases hfail with
      | fork e' =>
        cases hf _ (List.mem_append_right _ (.head _))
        exact ⟨_, rfl, rfl⟩
      | argument hm hn =>
        rw [ha _ hm] at hn
        cases hn

/-- Where no process can be had, a start ends with the first service of its plan. -/
theorem exists_runs_start {rest : List r.Id} (hp : r.plan b i = .ok (j :: rest)) (hj : b[j].pid = none)
    (ha : ∀ a ∈ (r.service j).argv, a.contains '\x00' = false) (e : Errno) :
    ∃ h c, Runs (start sup i) n b h (.error (.spawnFailed c e)) (b.set j b[j].failed) := by
  obtain ⟨h, ⟨res, b'⟩, hr, hf⟩ :=
    Dialogue.Halts.exists_runs (halts_start sup i n b) fun q => Kernel.refusal e q.1
  have hforks : ∀ f ∈ forks h, f.2 = .error e := fun ⟨c, a⟩ hm => by
    obtain ⟨s, hm⟩ := mem_forks_iff.mp hm
    exact hf _ hm
  obtain ⟨fs, hfs, hs⟩ := attempted_of_runs hr
  rw [hfs] at hforks
  cases hs with
  | refused hp' => cases hp.symm.trans hp'
  | planned hp' hc =>
    cases hp.symm.trans hp'
    obtain ⟨c, rfl, rfl⟩ := hc.of_forks_fail hj hforks ha
    exact ⟨h, c, hr⟩

/-- A service `a` whose restart policy is the given one, and a service `b` that depends on it. -/
def dependentPair (p : RestartPolicy) : Registry where
  services := [⟨"a", ["a"], nofun, [], p, ⟨[]⟩⟩, ⟨"b", ["b"], nofun, ["a"], .never, ⟨[]⟩⟩]
  ordered := List.pairwise_pair.mpr (show "a" < "b" by decide)

/-- The service `b`. -/
def dependent (p : RestartPolicy) : (dependentPair p).Id := (1 : Fin 2)

theorem dependentPair_argv {p : RestartPolicy} (k : (dependentPair p).Id) :
    ∀ a ∈ ((dependentPair p).service k).argv, a.contains '\x00' = false := by
  intro a ha
  match k with
  | ⟨0, _⟩ =>
    obtain rfl := List.mem_singleton.mp ha
    cbv
  | ⟨1, _⟩ =>
    obtain rfl := List.mem_singleton.mp ha
    cbv

/-- No process can be had for a first start of `b`. -/
theorem exists_runs_start_dependent (p : RestartPolicy) :
    ∃ h c, Runs (start ⟨[]⟩ (dependent p)) 0 Board.initial h (.error (.spawnFailed c .tryAgain))
      ⟨#v[⟨.broken, none, 0, false⟩, {}]⟩ := by
  have hp : (dependentPair p).plan Board.initial (dependent p) = .ok [(0 : Fin 2), (1 : Fin 2)] := by cbv
  exact exists_runs_start hp rfl (dependentPair_argv _) .tryAgain

/-! ## Another attempt -/

/-- If a start has ended because a fork failed, it was that of a service `j` which is broken now and whose
exit code is what it was.  Where `j` is another service than the one to be started, and its policy is never
to restart, or only after a failure that the exit code does not show, the same start is refused from then
on.  Everywhere else it is carried out, and if no fork fails it ends with the service running, except for a
command line that cannot be run. -/
theorem start_again {c : String} {e : Errno}
    (hr : Runs (start sup i) n b h (.error (.spawnFailed c e)) b') :
    ∃ j : r.Id, (forks h).getLast? = some (childOf sup j, .error e) ∧ b'[j] = b[j].failed ∧
      (i ≠ j ∧ ((r.service j).restart = .never ∨
          (r.service j).restart = .onFailure ∧ b[j].exitCode = 0) →
        ∃ k, ∀ n, (start sup i).dialogue n b' =
          .done (.error (.dependencyBlocked (r.service k).name (r.service j).name .broken), b')) ∧
      (¬ (i ≠ j ∧ ((r.service j).restart = .never ∨
          (r.service j).restart = .onFailure ∧ b[j].exitCode = 0)) →
        Halts (start sup i) ∧ ∀ n h res b'', Runs (start sup i) n b' h res b'' →
          (∀ c e, (c, .error e) ∉ forks h) →
          (res = .ok () ∧ b''.isRunning i = true) ∨
            ∃ k, ∃ a ∈ (r.service k).argv, a.contains '\x00' = true ∧
              res = .error (.invalidCommand (.nulByte a))) := by
  obtain ⟨fs, hfs, hs⟩ := attempted_of_runs hr
  rw [hfs]
  obtain ⟨is, hp, hc⟩ : ∃ is, r.plan b i = .ok is ∧ CarriedOut sup b is fs (.error (.spawnFailed c e)) b' := by
    cases hs with
    | refused hp => cases Board.obstacle_of_plan_eq_error hp
    | planned hp hc => exact ⟨_, hp, hc⟩
  have hplan := Board.isPlan_of_plan_eq_ok hp
  obtain ⟨done, j, rest, rfl, hlast, hs⟩ := hc.stoppedAt hplan.nodup
  have hblocked : b'.isBlocked j = true ↔ (r.service j).restart = .never ∨
      (r.service j).restart = .onFailure ∧ b[j].exitCode = 0 := by
    rw [Board.isBlocked, hs.failed, Service.State.isBlocked_failed_iff hs.idle]
  refine ⟨j, hlast, hs.failed, ?_, ?_⟩
  · rintro ⟨hij, hb⟩
    obtain ⟨k, hk⟩ := hs.plan_eq_error hp hij (hs.requires_stopped hplan) (hblocked.mpr hb)
    exact ⟨k, fun n => dialogue_start_of_plan_eq_error hk⟩
  · intro hb
    have hfree : i ≠ j → b'.isBlocked j = false := fun hij =>
      Bool.eq_false_iff.mpr fun hj => hb ⟨hij, hblocked.mp hj⟩
    obtain ⟨is, hp'⟩ := hs.plan_eq_ok hp hfree
    refine ⟨halts_start sup i, fun n h res b'' hr hf => ?_⟩
    obtain ⟨fs, hfs, hs⟩ := attempted_of_runs hr
    rw [hfs] at hf
    cases hs with
    | refused hp => cases hp'.symm.trans hp
    | planned hp hc => exact hc.of_forks_ok (Board.isPlan_of_plan_eq_ok hp).last hf

/-- A dependency that is always to be started again. -/
theorem start_again_of_always :
    ∃ h c b', Runs (start ⟨[]⟩ (dependent .always)) 0 Board.initial h (.error (.spawnFailed c .tryAgain)) b' ∧
      ∀ n h res b'', Runs (start ⟨[]⟩ (dependent .always)) n b' h res b'' →
        (∀ c e, (c, .error e) ∉ forks h) → res = .ok () ∧ b''.isRunning (dependent .always) = true := by
  obtain ⟨h, c, hr⟩ := exists_runs_start_dependent .always
  obtain ⟨j, -, -, -, hok⟩ := start_again hr
  refine ⟨h, c, _, hr, fun n h res b'' hr hf => ((hok ?_).2 n h res b'' hr hf).resolve_right ?_⟩
  · rintro ⟨hj, hp⟩
    match j with
    | ⟨0, _⟩ => simp [dependentPair, Registry.service] at hp
    | ⟨1, _⟩ => exact hj rfl
  · rintro ⟨k, a, ha, hn, -⟩
    rw [dependentPair_argv k a ha] at hn
    cases hn

/-- A dependency that is never to be started again, although it has never run. -/
theorem start_again_refused :
    (dependentPair .never).validate = .ok () ∧
      ∃ h c b', Runs (start ⟨[]⟩ (dependent .never)) 0 Board.initial h (.error (.spawnFailed c .tryAgain)) b' ∧
        ∀ n h res b'', Runs (start ⟨[]⟩ (dependent .never)) n b' h res b'' → res ≠ .ok () := by
  obtain ⟨h, c, hr⟩ := exists_runs_start_dependent .never
  refine ⟨by cbv, h, c, _, hr, fun n h res b'' hr' he => ?_⟩
  have hp : (dependentPair .never).plan ⟨#v[⟨.broken, none, 0, false⟩, {}]⟩ (dependent .never) =
      .error (.dependencyBlocked "b" "a" .broken) := by cbv
  unfold Runs at hr'
  rw [dialogue_start_of_plan_eq_error hp] at hr'
  subst he
  cases hr'

end ContainerInit.Supervision
