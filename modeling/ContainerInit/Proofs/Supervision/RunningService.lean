import ContainerInit.Proofs.Supervision.DependencyOrder
import ContainerInit.Proofs.Supervision.Retry

/-! # Starting what runs already

A start of a service that runs leaves that service alone, but it is planned like any other: its dependencies are looked
at before it is known that nothing has to be done.  One that has ended is started again, or it is in the way and the
start fails.  Only where all dependencies run as well is such a start without any effect.

That the start is planned first shows in what a plan contains: the service itself comes last in it, whether it runs or
not, and is passed over when its turn comes.  The other places that start services look at the service first, so that
they do not get here.

The last section has a session that brings this about: a service runs, the one that it depends on has ended and is
never to be started again, and a start of the former fails. -/

namespace ContainerInit.Supervision

open ContainerInit.Action

variable {r : Registry} {sup : Supervisor} {i j : r.Id} {b b' : Board r} {is : List r.Id} {fs : List Fork}
  {res : Except Error Unit}

/-- What a service names as a dependency exists, and nothing that exists is needed. -/
theorem supplied_of_not_needs (hl : ∀ name, ¬ r.Lacks i name) (hn : ∀ k, ¬ b.Needs i k) : b.Supplied i := by
  intro name hname
  obtain ⟨j, rfl⟩ : ∃ j : r.Id, (r.service j).name = name := by
    by_contra hnone
    exact hl name ⟨hname, fun j hj => hnone ⟨j, hj⟩⟩
  refine ⟨j, rfl, Board.isRunning_eq_true_iff.mp (Bool.of_not_eq_false fun hj => ?_)⟩
  exact hn j ⟨hname, hj⟩

/-! ## Plans with services that run -/

/-- Every fork of a plan is one for a service of the plan that does not run. -/
theorem CarriedOut.of_mem_forks (hc : CarriedOut sup b is fs res b') {f : Fork} (hf : f ∈ fs) :
    ∃ j ∈ is, b.isRunning j = false ∧ f.1 = childOf sup j := by
  have hfor : ∀ {l : List r.Id} {pid : r.Id → Pid}, f ∈ forksFor sup b l pid →
      ∃ j ∈ l, b.isRunning j = false ∧ f.1 = childOf sup j := by
    intro l pid hm
    obtain ⟨j, hj, rfl⟩ := List.mem_map.mp hm
    obtain ⟨hj, hidle⟩ := List.mem_filter.mp hj
    exact ⟨j, hj, by simpa using hidle, rfl⟩
  cases hc with
  | complete is pid => exact hfor hf
  | @stopped done rest j fs e pid hi hfail =>
    rcases List.mem_append.mp hf with hf | hf
    · obtain ⟨k, hk, hidle⟩ := hfor hf
      exact ⟨k, List.mem_append_left _ hk, hidle⟩
    · refine ⟨j, List.mem_append_right _ (.head _), Board.isRunning_eq_false_iff.mpr hi, ?_⟩
      cases hfail with
      | fork e =>
        obtain rfl := List.mem_singleton.mp hf
        rfl
      | argument ha hn => cases hf

/-- A plan changes nothing but its services that do not run. -/
theorem CarriedOut.of_getElem_ne (hc : CarriedOut sup b is fs res b') (hj : b'[j] ≠ b[j]) :
    j ∈ is ∧ b.isRunning j = false := by
  have hwith : ∀ {l : List r.Id} {pid : r.Id → Pid}, (withStarted b l pid)[j] ≠ b[j] →
      j ∈ l ∧ b.isRunning j = false := by
    intro l pid hne
    rw [getElem_withStarted] at hne
    by_contra hn
    refine hne (if_neg fun h => hn ?_)
    simpa using h
  cases hc with
  | complete is pid => exact hwith hj
  | @stopped done rest k fs e pid hk hfail =>
    by_cases hkj : k = j
    · subst hkj
      exact ⟨List.mem_append_right _ (.head _), Board.isRunning_eq_false_iff.mpr hk⟩
    · rw [Board.getElem_set_ne _ _ hkj] at hj
      exact (hwith hj).imp_left (List.mem_append_left _)

/-- Where all services of a plan run, there is nothing to do. -/
theorem CarriedOut.of_isRunning (hc : CarriedOut sup b is fs res b') (hall : ∀ j ∈ is, b.isRunning j = true) :
    res = .ok () ∧ fs = [] ∧ b' = b := by
  have hidle : ∀ {j}, j ∈ is → b.isRunning j ≠ false := fun hj => Bool.ne_false_iff.mpr (hall _ hj)
  refine ⟨?_, ?_, ?_⟩
  · cases hc with
    | complete is pid => rfl
    | @stopped done rest j fs e pid hi hfail =>
      exact absurd (Board.isRunning_eq_false_iff.mpr hi) (hidle (List.mem_append_right _ (.head _)))
  · refine List.eq_nil_iff_forall_not_mem.mpr fun f hf => ?_
    obtain ⟨j, hj, hn, -⟩ := hc.of_mem_forks hf
    exact hidle hj hn
  · refine Board.ext fun j => ?_
    by_contra hne
    obtain ⟨hj, hn⟩ := hc.of_getElem_ne hne
    exact hidle hj hn

/-- Where nothing has been forked and nothing has failed, all services of the plan have been running. -/
theorem CarriedOut.isRunning_of_ok (hc : CarriedOut sup b is [] (.ok ()) b') (hj : j ∈ is) :
    b.isRunning j = true := by
  generalize hfs : ([] : List Fork) = fs at hc
  cases hc with
  | complete is pid =>
    refine Bool.of_not_eq_false fun hidle => ?_
    have hmem : (childOf sup j, .ok (pid j)) ∈ forksFor sup b is pid :=
      List.mem_map.mpr ⟨j, List.mem_filter.mpr ⟨hj, by simpa using hidle⟩, rfl⟩
    rw [← hfs] at hmem
    cases hmem

/-! ## The start -/

/-- A start of a service that runs is without any effect exactly if all that the service depends on exists and
runs as well.  If there is an obstacle it fails, and that is all.  Otherwise it starts what does not run among the
services that are required, but never touches the one that it is for. -/
theorem start_running (sup : Supervisor) (hi : b.isRunning i = true) : Halts (start sup i) ∧
    ∀ n h res b', Runs (start sup i) n b h res b' →
      (res = .ok () ∧ forks h = [] ∧ b' = b ↔ b.Supplied i) ∧
      ((∃ e, b.Obstacle i e) → (∃ e, res = .error e ∧ b.Obstacle i e) ∧ forks h = [] ∧ b' = b) ∧
      (∀ f ∈ forks h, ∃ j, j ≠ i ∧ b.Requires i j ∧ b.isRunning j = false ∧ f.1 = childOf sup j) ∧
      ∀ j, b'[j] ≠ b[j] → j ≠ i ∧ b.Requires i j ∧ b.isRunning j = false := by
  refine ⟨halts_start sup i, fun n h res b' hr => ?_⟩
  have hne : ∀ {j}, b.isRunning j = false → j ≠ i := by
    rintro j hj rfl
    cases hj.symm.trans hi
  obtain ⟨fs, hfs, hs⟩ := attempted_of_runs hr
  rw [hfs]
  cases hs with
  | @refused e hp =>
    have ho := Board.obstacle_of_plan_eq_error hp
    refine ⟨⟨nofun, fun hs => absurd ho (hs.not_obstacle e)⟩, fun _ => ⟨⟨e, rfl, ho⟩, rfl, rfl⟩, nofun, ?_⟩
    exact fun j hj => absurd rfl hj
  | planned hp hc =>
    have hplan := Board.isPlan_of_plan_eq_ok hp
    have hno := Board.not_obstacle_of_plan_eq_ok hp
    refine ⟨⟨?_, fun hs => ?_⟩, fun ⟨e, ho⟩ => absurd ho (hno e), fun f hf => ?_, fun j hj => ?_⟩
    · rintro ⟨rfl, rfl, rfl⟩
      refine supplied_of_not_needs (fun name hl => hno _ (.missing .refl hl)) fun k hk => ?_
      have hrun := hc.isRunning_of_ok ((hplan.mem_iff k).mpr (.single hk))
      cases hk.2.symm.trans hrun
    · refine hc.of_isRunning fun j hj => ?_
      rwa [hs.eq_of_requires ((hplan.mem_iff j).mp hj)]
    · obtain ⟨j, hj, hidle, hchild⟩ := hc.of_mem_forks hf
      exact ⟨j, hne hidle, (hplan.mem_iff j).mp hj, hidle, hchild⟩
    · obtain ⟨hj, hidle⟩ := hc.of_getElem_ne hj
      exact ⟨hne hidle, (hplan.mem_iff j).mp hj, hidle⟩

/-- The service `a`. -/
def prerequisite (p : RestartPolicy) : (dependentPair p).Id := ⟨0, Nat.zero_lt_two⟩

/-- Both services run. -/
def bothRunning (p : RestartPolicy) : Board (dependentPair p) :=
  (Board.initial.set (prerequisite p) (Service.State.started {} 100)).set (dependent p) (Service.State.started {} 101)

theorem supplied_bothRunning (p : RestartPolicy) : (bothRunning p).Supplied (dependent p) := by
  intro name hname
  obtain rfl := List.mem_singleton.mp hname
  exact ⟨prerequisite p, rfl, 100, rfl⟩

/-- With its dependency running, nothing happens. -/
theorem start_running_dependent : (bothRunning .never).isRunning (dependent .never) = true ∧
    ∀ n h res b', Runs (start ⟨[]⟩ (dependent .never)) n (bothRunning .never) h res b' →
      res = .ok () ∧ forks h = [] ∧ b' = bothRunning .never := by
  refine ⟨rfl, fun n h res b' hr => ?_⟩
  obtain ⟨-, hall⟩ := start_running (b := bothRunning .never) (i := dependent .never) ⟨[]⟩ rfl
  exact (hall n h res b' hr).1.mpr (supplied_bothRunning .never)

/-- Both services are started, and the end of the one that the other depends on is noted. -/
def pairSession : List (Request (dependentPair .never)) :=
  [.start (prerequisite .never), .start (dependent .never), .checkProcess (prerequisite .never)]

/-- Every fork succeeds, and every process ends at once. -/
def pairAnswers : (q : Kernel.Call × Board (dependentPair .never)) → Kernel.signature.Answer q.1
  | (.fork _, b) => .ok (if b.anyRunning then 101 else 100)
  | (.wait p, _) => .ok (.exited p 0)
  | (c, _) => Kernel.refusal .tryAgain c

/-- The dependency has ended, while the service that depends on it runs. -/
def dependencyEnded : Board (dependentPair .never) :=
  ⟨#v[⟨.broken, none, 0, false⟩, ⟨.running, some 101, 0, false⟩]⟩

/-- Both services are started, and the end of the dependency is noted. -/
theorem exists_runs_pairSession : ∃ h,
    Runs (session ⟨[]⟩ pairSession) 1 Board.initial h (.ok [.ok (), .ok (), .ok ()]) dependencyEnded :=
  (Dialogue.exists_runs_of_answered (f := pairAnswers) (by cbv)).imp fun _ => And.left

/-- There is no plan, since the dependency may not be started again. -/
theorem plan_dependencyEnded : (dependentPair .never).plan dependencyEnded (dependent .never) =
    .error (.dependencyBlocked "b" "a" .broken) := by cbv

/-- A session after which a start of a running service fails. -/
theorem start_running_fails : ∃ n h results b,
    Runs (session ⟨[]⟩ pairSession) n Board.initial h (.ok results) b ∧
      b.isRunning (dependent .never) = true ∧
      ∀ n h res b', Runs (start ⟨[]⟩ (dependent .never)) n b h res b' → res ≠ .ok () := by
  obtain ⟨h, hsession⟩ := exists_runs_pairSession
  refine ⟨1, h, _, _, hsession, rfl, fun n h res b' hr he => ?_⟩
  unfold Runs at hr
  rw [dialogue_start_of_plan_eq_error plan_dependencyEnded] at hr
  subst he
  cases hr

end ContainerInit.Supervision
